import Ratspeak.Hub.Handlers

/-!
# The other handlers as moves

Relaying, resources, joining and leaving, the mutations of the owner and the
clocks are sequences of moves as well.
-/

namespace Ratspeak

open Library

namespace HubTurn

variable {limits : Limits}

/-! ## Relaying -/

theorem not_banned_of_relayRefusal {core : HubCore} {linkId : LinkId}
    {identity : IdentityHash} {roomName : String} {room : HubRoom}
    (held : core.rooms.lookup roomName = some room)
    (passes : core.relayRefusal linkId identity roomName = none) :
    ¬ identity ∈ room.bans := by
  intro banned
  simp only [HubCore.relayRefusal, held] at passes
  split at passes
  · cases passes
  · rename_i equal
    cases equal
  · rename_i found equal
    cases equal
    simp [banned] at passes

theorem isRoster_shedNickname (envelope : Envelope) :
    envelope.shedNickname.isRoster = envelope.isRoster := by
  unfold Envelope.shedNickname
  split
  · rfl
  · rfl

theorem room_shedNickname (envelope : Envelope) :
    envelope.shedNickname.room = envelope.room := by
  unfold Envelope.shedNickname
  split
  · rfl
  · rfl

theorem source_shedNickname (envelope : Envelope) :
    envelope.shedNickname.source = envelope.source := by
  unfold Envelope.shedNickname
  split
  · rfl
  · rfl

theorem messageId_shedNickname (envelope : Envelope) :
    envelope.shedNickname.messageId = envelope.messageId := by
  unfold Envelope.shedNickname
  split
  · rfl
  · rfl

theorem messageType_shedNickname (envelope : Envelope) :
    envelope.shedNickname.messageType = envelope.messageType := by
  unfold Envelope.shedNickname
  split
  · rfl
  · rfl

theorem body_shedNickname (envelope : Envelope) :
    envelope.shedNickname.body = envelope.body := by
  unfold Envelope.shedNickname
  split
  · rfl
  · rfl

theorem rememberNickname_rooms (turn : HubTurn) (linkId : LinkId) (envelope : Envelope) :
    (turn.rememberNickname linkId envelope).core.rooms = turn.core.rooms := by
  unfold rememberNickname
  split
  · rfl
  · split
    · rfl
    · rfl

theorem moves_rememberNickname (turn : HubTurn) (linkId : LinkId) (envelope : Envelope) :
    Moves limits turn (turn.rememberNickname linkId envelope) := by
  unfold rememberNickname
  split
  · exact .refl
  · split
    · exact .refl
    · exact .single (move_modifySession turn linkId
        (fun session => ⟨rfl, rfl, rfl⟩) fun _ session => rfl)

theorem moves_relayInto (turn : HubTurn) (linkId : LinkId)
    (identity : IdentityHash) (roomName : String) (envelope : Envelope)
    (content : envelope.isRoster = false)
    (passes : turn.core.relayRefusal linkId identity roomName = none)
    (allowed : (turn.core.rooms.lookup roomName).isSome = true →
      limits.relays roomName
        (relayedEnvelope turn.core linkId identity (some roomName) envelope)) :
    Moves limits turn
      (turn.relayInto linkId identity roomName envelope) := by
  unfold relayInto
  dsimp only
  have remembered : Moves limits turn
      (turn.rememberNickname linkId envelope) :=
    moves_rememberNickname turn linkId envelope
  split
  · exact remembered.tail (move_pushError _ _ _ _)
  · have counted := remembered.tail
      (move_modifyStats _ (countForwarded envelope.messageType))
    split
    · exact counted
    · rename_i room held
      have there : turn.core.rooms.lookup roomName = some room := by
        rw [← turn.rememberNickname_rooms linkId envelope]
        exact held
      refine (counted.tail (Move.relay held ?_ ?_ ?_
        (allowed (by rw [there]; rfl)))).tail (move_mintRoomToken _ roomName)
      · rw [relayedEnvelope, room_shedNickname]
      · rw [relayedEnvelope, isRoster_shedNickname]
        exact content
      · rw [relayedEnvelope, source_shedNickname]
        exact not_banned_of_relayRefusal there passes

theorem moves_withRelayGate {turn : HubTurn} {linkId : LinkId}
    {identity : IdentityHash} {roomName : String} {refused next : HubTurn → HubTurn}
    (refusing : ∀ turn, Moves limits turn (refused turn))
    (following : turn.core.relayRefusal linkId identity roomName = none →
      Moves limits turn (next turn)) :
    Moves limits turn
      (turn.withRelayGate linkId identity roomName refused next) := by
  unfold withRelayGate
  split
  · exact .head (move_pushError turn _ _ _) (refusing _)
  · rename_i passes
    exact following passes

theorem moves_onDirectNotice (turn : HubTurn) (linkId : LinkId)
    (identity : IdentityHash) (envelope : Envelope) (content : envelope.isRoster = false) :
    Moves limits turn (turn.onDirectNotice linkId identity envelope) := by
  unfold onDirectNotice
  split
  · exact moves_pushError ..
  · rename_i roomless
    split
    · exact moves_pushError ..
    · split
      · exact moves_pushError ..
      · dsimp only
        have remembered : Moves limits turn
            (turn.rememberNickname linkId envelope) :=
          moves_rememberNickname turn linkId envelope
        split
        · exact remembered.tail (move_pushError _ _ _ _)
        · refine (remembered.tail (move_modifyStats _ _)).tail
            (Move.reply ⟨?_, ?_⟩)
          · rw [relayedEnvelope, isRoster_shedNickname]
            exact content
          · rintro roomName ⟨scope, -⟩
            rw [relayedEnvelope, room_shedNickname] at scope
            exact roomless (Option.isSome_iff_exists.mpr ⟨roomName, scope⟩)

section Relay

variable [UnicodeTables]

theorem moves_relayToRoom (turn : HubTurn) (linkId : LinkId)
    (identity : IdentityHash) (envelope : Envelope) (content : envelope.isRoster = false)
    (relays : ∀ roomName,
      turn.core.normRoom (envelope.room.getD "") = .ok roomName →
        turn.core.relayRefusal linkId identity roomName = none →
          (turn.core.rooms.lookup roomName).isSome = true →
            limits.relays roomName
              (relayedEnvelope turn.core linkId identity (some roomName) envelope)) :
    Moves limits turn (turn.relayToRoom linkId identity envelope) := by
  unfold relayToRoom
  split
  · exact moves_pushError ..
  · rename_i roomName normed
    exact moves_withRelayGate (fun _ => .refl) fun passes =>
      moves_relayInto turn linkId identity roomName envelope content passes
        (relays roomName normed passes)

theorem moves_onRelay [HubCrypto] (turn : HubTurn) (linkId : LinkId)
    (envelope : Envelope) (content : envelope.isRoster = false) (commands : ∀ identity,
      turn.core.sessionIdentity linkId = some identity →
        isSlashText envelope = true → SlashLimits limits turn linkId identity envelope)
    (relays : ∀ identity roomName stamp,
      turn.core.sessionIdentity linkId = some identity →
        isSlashText envelope = false →
          turn.core.normRoom (envelope.room.getD "") = .ok roomName →
            turn.core.relayRefusal linkId identity roomName = none →
              (turn.core.rooms.lookup roomName).isSome = true →
                limits.relays roomName
                  (relayedEnvelope turn.core linkId identity (some roomName)
                    { envelope with timestampMs := stamp })) :
    Moves limits turn (turn.onRelay linkId envelope) := by
  unfold onRelay
  split
  · exact .refl
  · rename_i identity identified
    dsimp only
    split
    · rename_i slash
      have may := commands identity identified slash
      split
      · rename_i after handled
        have mayHere : SlashLimits limits turn linkId identity
            { envelope with
              timestampMs := sanitizeDisplayTimestampMs envelope.timestampMs
                turn.ambient.ms } :=
          ⟨may.expels, may.closes, may.registers, may.unregisters⟩
        exact moves_handleSlashCommand mayHere handled
      · exact moves_pushError ..
    · rename_i plain
      have relaysHere : ∀ stamp, Moves limits turn
          (turn.relayToRoom linkId identity { envelope with timestampMs := stamp }) :=
        fun stamp => moves_relayToRoom turn linkId identity _ content
          fun roomName normed passes => relays identity roomName stamp
            identified (Bool.eq_false_iff.mpr plain) normed passes
      split
      · split
        · exact moves_pushError ..
        · split
          · exact moves_pushError ..
          · exact relaysHere _
      · split
        · exact moves_onDirectNotice turn linkId identity _ content
        · split
          · exact .refl
          · exact relaysHere _

end Relay

/-! ## Resources -/

theorem moves_rejectResource (meters : limits.meters) (turn : HubTurn)
    (linkId : LinkId) (text : String) (room : Option String) :
    Moves limits turn (turn.rejectResource linkId text room) :=
  (Relation.ReflTransGen.single (move_modifyAdmission meters turn _)).tail
    (Move.reply (plain_hubErrorEcho _ linkId text room))

theorem moves_notePacket (turn : HubTurn) (linkId : LinkId) :
    Moves limits turn (turn.notePacket linkId).1 := by
  unfold notePacket
  split
  · exact .refl
  · split
    · exact .refl
    · exact .single (move_modifySession turn linkId
        (fun session => ⟨rfl, rfl, rfl⟩) fun _ session => rfl)

theorem notePacket_rooms (turn : HubTurn) (linkId : LinkId) :
    (turn.notePacket linkId).1.core.rooms = turn.core.rooms := by
  unfold notePacket
  split
  · rfl
  · split
    · rfl
    · rfl

theorem moves_notePackets (turn : HubTurn) (linkId : LinkId) (count : Nat) :
    Moves limits turn (turn.notePackets linkId count).1 := by
  induction count generalizing turn with
  | zero => exact .refl
  | succ count ih =>
      exact (moves_notePacket turn linkId).trans (ih (turn.notePacket linkId).1)

theorem notePackets_rooms (turn : HubTurn) (linkId : LinkId) (count : Nat) :
    (turn.notePackets linkId count).1.core.rooms = turn.core.rooms := by
  induction count generalizing turn with
  | zero => rfl
  | succ count ih => exact (ih _).trans (turn.notePacket_rooms linkId)

theorem moves_fanOutAll (turn : HubTurn) (room : HubRoom)
    (roomName : String) (content : HubTurn → String → Envelope) (chunks : List String)
    (held : turn.core.rooms.lookup roomName = some room)
    (scope : ∀ turn chunk, (content turn chunk).room = some roomName)
    (kind : ∀ turn chunk, (content turn chunk).isRoster = false)
    (clear : ∀ turn chunk, ¬ (content turn chunk).source ∈ room.bans)
    (allowed : ∀ envelope, limits.relays roomName envelope) :
    Moves limits turn
      (chunks.foldl
        (fun turn chunk => turn.fanOut room (content turn chunk)) turn) := by
  induction chunks generalizing turn with
  | nil => exact .refl
  | cons chunk rest ih =>
      refine .head (Move.relay held (scope turn chunk) (kind turn chunk)
        (clear turn chunk) (allowed _)) (ih _ ?_)
      simpa [fanOut] using held

theorem moves_fanOutResourceNotice (turn : HubTurn) (linkId : LinkId)
    (identity : IdentityHash) (roomName text : String)
    (passes : turn.core.relayRefusal linkId identity roomName = none)
    (allowed : ∀ envelope, limits.relays roomName envelope) :
    Moves limits turn
      (turn.fanOutResourceNotice linkId identity roomName text) := by
  unfold fanOutResourceNotice
  extract_lets _ _ _ nickname _ chunks
  clear_value nickname chunks
  dsimp only
  have accounted : ∀ count,
      Moves limits turn (turn.notePackets linkId count).1 :=
    moves_notePackets turn linkId
  split
  · exact ((accounted _).tail (move_modifyStats _ _)).tail
      (Move.reply (plain_hubErrorEcho _ _ _ _))
  · split
    · exact accounted _
    · rename_i room held
      rw [notePackets_rooms] at held
      refine (((accounted _).tail (move_modifyStats _ _)).trans
        (moves_fanOutAll _ room roomName
          (fun turn chunk =>
            { Envelope.new turn.ambient.ms .notice identity with
              room := some roomName
              nickname := nickname
              body := some (.text chunk) })
          chunks ?_ (fun _ _ => rfl) (fun _ _ => rfl) (fun _ _ => ?_)
          allowed)).tail
        (move_mintRoomToken _ roomName)
      · simpa [modifyStats, notePackets_rooms] using held
      · exact not_banned_of_relayRefusal held passes

section Resources

variable [UnicodeTables]

theorem moves_onResourceEnvelope (meters : limits.meters) (turn : HubTurn)
    (linkId : LinkId) (envelope : Envelope) :
    Moves limits turn (turn.onResourceEnvelope linkId envelope) := by
  unfold onResourceEnvelope
  dsimp only
  split
  · exact moves_rejectResource meters turn _ _ _
  · split
    · exact .refl
    · split
      · exact moves_rejectResource meters turn _ _ _
      · split
        · exact moves_rejectResource meters turn _ _ _
        · split
          · exact moves_rejectResource meters turn _ _ _
          · split
            · exact moves_rejectResource meters turn _ _ _
            · split
              · exact moves_rejectResource meters turn _ _ _
              · refine moves_withRelayGate
                  (fun turn => .single (move_modifyAdmission meters turn _))
                  fun _ => ?_
                split
                · exact .single (move_modifyAdmission meters turn _)
                · exact .head (move_modifyAdmission meters turn _)
                    (moves_rejectResource meters _ _ _ _)

end Resources

theorem moves_onResourceCompleted [HubCrypto] (meters : limits.meters)
    (turn : HubTurn) (linkId : LinkId) (resourceHash : Bytes 32)
    (data : List UInt8) (hasMetadata : Bool)
    (relays : ∀ roomName envelope, limits.relays roomName envelope) :
    Moves limits turn
      (turn.onResourceCompleted linkId resourceHash data hasMetadata) := by
  unfold onResourceCompleted
  extract_lets retired rejected taken claimed rejectedClaim
  have retires : Moves limits turn retired :=
    .single (move_modifyAdmission meters turn _)
  have rejects : ∀ turn : HubTurn, Moves limits turn
      (turn.modifyAdmission AdmissionState.noteRejected) := fun turn =>
    .single (move_modifyAdmission meters turn _)
  refine retires.trans ?_
  split
  · exact .refl
  · split
    · exact .refl
    · rename_i identity _
      split
      · exact rejects retired
      · have claims : Moves limits retired claimed :=
          .single (move_modifyAdmission meters retired _)
        refine claims.trans ?_
        split
        · exact rejects claimed
        · dsimp only
          split
          · exact rejects claimed
          · split
            · exact moves_rejectResource meters claimed _ _ _
            · exact moves_withRelayGate rejects fun passes =>
                moves_fanOutResourceNotice claimed _ identity _ _ passes (relays _)

/-! ## Entering and leaving -/

section Gate

variable [HubCrypto]

/-- The gates of a room let in an identity that presents this text as the
key.  Whether a room may be founded is a gate, too. -/
def admits (core : HubCore) (roomName : String) (identity : IdentityHash)
    (provided : Option String) (now : WallTime) : Bool :=
  match core.rooms.lookup roomName with
  | some room => (joinRefusal core roomName room identity provided now).isNone
  | none => decide (identity ∈ core.serverOps)

theorem not_banned_of_joinRefusal {core : HubCore} {roomName : String}
    {room : HubRoom} {identity : IdentityHash} {provided : Option String} {now : WallTime}
    (passes : joinRefusal core roomName room identity provided now = none) :
    ¬ identity ∈ room.bans := by
  intro banned
  unfold joinRefusal at passes
  dsimp only at passes
  rw [if_pos banned] at passes
  split at passes
  · cases passes
  · split at passes
    · cases passes
    · cases passes

theorem moves_joinRoom (turn : HubTurn) (linkId : LinkId)
    (identity : IdentityHash) (envelope : Envelope) (roomName : String)
    (room : HubRoom) {session : HubSession}
    (live : turn.core.sessions.lookup linkId = some session)
    (identified : session.identity = some identity) (welcomed : session.welcomed = true)
    (held : turn.core.rooms.lookup roomName = some room)
    (enters : joinRefusal turn.core roomName room identity envelope.textBody
        turn.ambient.unix = none →
      limits.permits (.enter linkId roomName)) :
    Moves limits turn
      (turn.joinRoom linkId identity envelope roomName room) := by
  unfold joinRoom
  split
  · exact moves_pushError ..
  · rename_i passes
    have entered : Move limits turn
        (turn.enterRoom roomName linkId identity) :=
      .enter (enters passes) live identified welcomed held (not_banned_of_joinRefusal passes)
    exact ((Relation.ReflTransGen.single entered).tail
      (Move.reply (plain_hubNotice _ _ _ _))).tail
      (move_mintRoomToken _ roomName)

theorem moves_onJoin [UnicodeTables] (turn : HubTurn) (linkId : LinkId)
    (envelope : Envelope) (welcomed : ∀ session,
      turn.core.sessions.lookup linkId = some session → session.welcomed = true)
    (enters : ∀ identity raw roomName,
      turn.core.sessionIdentity linkId = some identity →
        namedRoom envelope = some raw →
        turn.core.normRoom raw = .ok roomName →
        admits turn.core roomName identity envelope.textBody turn.ambient.unix = true →
        limits.permits (.enter linkId roomName))
    (founds : ∀ raw roomName, turn.core.normRoom raw = .ok roomName → limits.names roomName) :
    Moves limits turn (turn.onJoin linkId envelope) := by
  unfold onJoin
  split
  · exact .refl
  · rename_i session live
    split
    · exact .refl
    · rename_i identity identified
      have proved : turn.core.sessionIdentity linkId = some identity := by
        simp [HubCore.sessionIdentity, live, identified]
      split
      · exact moves_pushError ..
      · rename_i raw named
        split
        · exact moves_pushError ..
        · rename_i roomName normed
          split
          · exact moves_pushError ..
          · split
            · rename_i room held
              refine moves_joinRoom turn linkId identity envelope roomName
                room live identified (welcomed session live) held
                fun passes => enters identity raw roomName proved named
                  normed ?_
              simp [admits, held, passes]
            · rename_i absent
              split
              · exact moves_pushError ..
              · rename_i operator
                have founded : Move limits turn
                    (turn.foundRoom roomName identity) :=
                  .found (founds raw roomName normed) absent rfl rfl rfl rfl
                    ⟨by simp, by simp⟩ rfl
                refine .head founded
                  (moves_joinRoom _ linkId identity envelope roomName _ live
                    identified (welcomed session live) ?_
                    fun _ => enters identity raw roomName proved named
                      normed ?_)
                · simp [foundRoom]
                · simp [admits, absent, not_not.mp operator]

end Gate

theorem moves_onPart [UnicodeTables] (turn : HubTurn) (linkId : LinkId)
    (envelope : Envelope) (leaves : ∀ identity raw roomName,
      turn.core.sessionIdentity linkId = some identity →
        namedRoom envelope = some raw →
        turn.core.normRoom raw = .ok roomName →
        limits.permits (.leave linkId roomName)) :
    Moves limits turn (turn.onPart linkId envelope) := by
  unfold onPart
  split
  · exact .refl
  · rename_i identity identified
    split
    · exact moves_pushError ..
    · rename_i raw named
      split
      · exact moves_pushError ..
      · rename_i roomName normed
        exact .single (.leave (leaves identity raw roomName identified named normed) identified)

/-! ## Owner mutations -/

end HubTurn

/-- The room that an accepted owner mutation removes an identity from, and
who that is. -/
def HubCore.expelledByOwner [UnicodeTables] (core : HubCore)
    (actor : IdentityHash) (mutation : ChannelHubAdminMutation) :
    Option (String × IdentityHash) :=
  let named := fun (room : String) (target : IdentityHash)
      (test : HubRoom → Bool) =>
    ((core.normRoom room).toOption.filter fun roomName =>
      decide (actor ∈ core.serverOps) && !decide (target ∈ core.serverOps) &&
        (core.rooms.lookup roomName).any test).map
      fun roomName => (roomName, target)
  match mutation with
  | .kick room target => named room target fun _ => true
  | .setRoomBan room target true => named room target HubRoom.registered
  | _ => none

namespace HubTurn

theorem bind_eq_ok {ε α β : Type} {first : Except ε α}
    {next : α → Except ε β} {result : β} (equal : (first >>= next) = .ok result) :
    ∃ value, first = .ok value ∧ next value = .ok result := by
  cases first with
  | error reason => cases equal
  | ok value => exact ⟨value, rfl, equal⟩

theorem Announces.core_eq {before after : HubTurn}
    (answers : Announces before after) : after.core = before.core := by
  obtain ⟨sends, -, rfl⟩ := answers
  exact before.pushAll_core sends

theorem dropIfEmpty_pendingRemovals (turn : HubTurn) (roomName : String) :
    (turn.dropIfEmpty roomName).core.pendingRemovals =
      turn.core.pendingRemovals := by
  rw [dropIfEmpty_pending]
  rfl

/-- A lease that passes a new policy was held under the same gate. -/
theorem leases_applyAdminRoomPolicy {policy : ChannelHubAdminRoomPolicy}
    {room after : HubRoom} {identity : IdentityHash} (kept : after.rejoinUntil =
      (applyAdminRoomPolicy policy room).rejoinUntil)
    (gate : after.inviteOnly = policy.inviteOnly) (held : after.Leases identity) :
    room.Leases identity ∧ after.inviteOnly = room.inviteOnly := by
  rw [HubRoom.Leases, kept, applyAdminRoomPolicy] at held
  dsimp only at held
  split at held
  · rename_i same
    exact ⟨held, gate.trans same.symm⟩
  · simp at held

theorem registered_applyAdminRoomPolicy {pepperId : Bytes 8}
    (policy : ChannelHubAdminRoomPolicy) (room : HubRoom)
    {topic : Option String} {key : Option RoomKeyDigest}
    (actor : IdentityHash) (now : WallTime) (someTopic : topic ≠ some "")
    (ownKey : ∀ digest, key = some digest → digest.pepperId = pepperId) :
    Registered pepperId room
      { applyAdminRoomPolicy policy
          { room with topic := topic, key := key } with
        registered := true
        ops := room.ops.insert actor
        lastUsed := now
        persistDirty := false } :=
  ⟨rfl, rfl, rfl, fun _ => ⟨someTopic, ownKey⟩,
    fun _ held => @leases_applyAdminRoomPolicy policy
      { room with topic := topic, key := key } _ _ rfl rfl held⟩

theorem moves_ensureRoom (turn : HubTurn) {roomName : String} (named : limits.names roomName) :
    Moves limits turn (turn.ensureRoom roomName) := by
  unfold ensureRoom
  split
  · exact .refl
  · rename_i absent
    exact .single (Move.found named absent rfl rfl rfl rfl ⟨by simp, by simp⟩ rfl)

theorem ensureRoom_pepperId (turn : HubTurn) (roomName : String) :
    (turn.ensureRoom roomName).core.pepperId = turn.core.pepperId := by
  rw [ensureRoom]
  split
  · rfl
  · rfl

theorem ensureRoom_isSome (turn : HubTurn) (roomName : String) :
    ((turn.ensureRoom roomName).core.rooms.lookup roomName).isSome =
      true := by
  unfold ensureRoom
  split
  · rename_i room held
    simp [held]
  · simp

theorem ensureRoom_out (turn : HubTurn) (roomName : String) :
    (turn.ensureRoom roomName).out = turn.out := by
  unfold ensureRoom
  split
  · rfl
  · rfl

theorem moves_createChannel (turn : HubTurn) {roomName : String}
    (actor : IdentityHash) {topic : Option String}
    (policy : ChannelHubAdminRoomPolicy) {key : Option RoomKeyDigest}
    (unwritten : turn.Unwritten) (named : limits.names roomName)
    (someTopic : topic ≠ some "") (ownKey : ∀ digest, key = some digest →
      digest.pepperId = turn.core.pepperId) :
    Moves limits turn
      (turn.createChannel roomName actor topic policy key) := by
  refine (moves_ensureRoom turn named).tail ?_
  refine Move.register
    (fun room =>
      { applyAdminRoomPolicy policy
          { room with topic := topic, key := key } with
        registered := true
        ops := room.ops.insert actor
        lastUsed := turn.ambient.unix
        persistDirty := false })
    ((turn.ensureRoom roomName).core.pendingRemovals.erase roomName)
    (turn.ensureRoom_isSome roomName)
    (fun room _ =>
      registered_applyAdminRoomPolicy policy room actor _ someTopic
        (by rw [ensureRoom_pepperId]; exact ownKey))
    ?_ (fun _ => ⟨?_, ?_⟩)
    ((announces_broadcastAdminTopic _ roomName).trans (announces_broadcastMode _ roomName))
  · intro name other
    simp [other]
  · simp
  · rw [Unwritten, ensureRoom_out]
    exact unwritten

theorem moves_unregisterChannel (turn : HubTurn) (roomName : String)
    (unwritten : turn.Unwritten) :
    Moves limits turn (turn.unregisterChannel roomName) := by
  have answers := announces_broadcastMode
    (turn.modifyRoom roomName fun room =>
      { room with
        registered := false
        rejoinUntil := ∅
        persistDirty := false }) roomName
  refine .single (Move.unregister
    (fun room =>
      { room with
        registered := false
        rejoinUntil := ∅
        persistDirty := false })
    (turn.core.pendingRemovals.erase roomName)
    (fun _ _ => ⟨rfl, rfl, rfl, fun held => ⟨held.topic, held.key⟩,
      HubRoom.not_leases rfl⟩) ?_
    (fun _ => ⟨unwritten, fun _ _ _ => rfl⟩) answers ?_)
  · intro name other
    simp [other]
  · simp only [mapCore, dropIfEmpty_pendingRemovals]
    rw [answers.core_eq]
    rfl

theorem applyAdminRoomPolicy_same {policy : ChannelHubAdminRoomPolicy}
    {room : HubRoom} (same : room.adminPolicy = policy) :
    applyAdminRoomPolicy policy room = room := by
  subst same
  simp [applyAdminRoomPolicy, HubRoom.adminPolicy]

theorem amended_applyAdminRoomPolicy {pepperId : Bytes 8}
    (policy : ChannelHubAdminRoomPolicy) {topic : Option String}
    {replacement : Option (Option RoomKeyDigest)} (room : HubRoom)
    (someTopic : topic ≠ some "") (ownKey : ∀ digest, replacement = some (some digest) →
      digest.pepperId = pepperId) :
    Amended pepperId room
      { applyAdminRoomPolicy policy room with
        topic := topic
        key := replacement.getD room.key } := by
  refine ⟨rfl, rfl, rfl, fun _ => id, fun held => ⟨someTopic, ?_⟩,
    fun _ held => leases_applyAdminRoomPolicy rfl rfl held⟩
  cases replacement with
  | none => exact held.key
  | some key =>
      intro digest isDigest
      exact ownKey digest (congrArg some isDigest)

theorem moves_updateChannel [UnicodeTables] [HubCrypto] (turn : HubTurn)
    (roomName : String) (room : HubRoom) (topic : Option String)
    (policy : ChannelHubAdminRoomPolicy) (replacement : Option (Option RoomKeyDigest))
    (held : turn.core.rooms.lookup roomName = some room) (someTopic : topic ≠ some "")
    (ownKey : ∀ digest, replacement = some (some digest) →
      digest.pepperId = turn.core.pepperId) :
    Moves limits turn
      (turn.updateChannel roomName room topic policy replacement) := by
  unfold updateChannel
  extract_lets topicChanged modesChanged updated announcedTopic announcedMode
  split
  · rename_i unchanged
    refine .single (move_modifyRoom turn roomName fun found foundHeld => ?_)
    have equal : found = room :=
      Option.some.inj (foundHeld.symm.trans held)
    subst equal
    simp only [topicChanged, modesChanged, Bool.not_eq_eq_eq_not,
      Bool.not_true, decide_eq_false_iff_not, not_not,
      Bool.or_eq_false_iff, Option.isSome_eq_false_iff,
      Option.isNone_iff_eq_none, Bool.and_eq_true] at unchanged
    obtain ⟨sameTopic, samePolicy, noKey⟩ := unchanged
    rw [applyAdminRoomPolicy_same samePolicy, noKey, ← sameTopic]
    exact ⟨rfl, fun _ => id⟩
  · refine .single (Move.amend
      (fun found _ => amended_applyAdminRoomPolicy policy found someTopic
        ownKey) ?_)
    have first : Announces updated announcedTopic := by
      simp only [announcedTopic]
      split
      · exact announces_broadcastAdminTopic updated roomName
      · exact .refl updated
    refine first.trans ?_
    simp only [announcedMode]
    split
    · exact announces_broadcastMode announcedTopic roomName
    · exact .refl announcedTopic

theorem held_of_requireRegistered {core : HubCore} {roomName : String} {room : HubRoom}
    (required : core.requireRegisteredAdminRoom roomName = .ok room) :
    core.rooms.lookup roomName = some room ∧ room.registered = true := by
  unfold HubCore.requireRegisteredAdminRoom at required
  split at required
  · cases required
  · rename_i found held
    split at required
    · rename_i registered
      cases required
      exact ⟨held, registered⟩
    · cases required

theorem normed_of_adminRoomName [UnicodeTables] {core : HubCore} {room roomName : String}
    (named : core.adminRoomName room = .ok roomName) :
    core.normRoom room = .ok roomName := by
  unfold HubCore.adminRoomName at named
  split at named
  · cases named
  · rename_i normed
    cases named
    exact normed

theorem ne_of_adminTopic {core : HubCore} {topic result : Option String}
    (named : core.adminTopic topic = .ok result) : result ≠ some "" := by
  cases topic with
  | none =>
      cases named
      simp
  | some topic =>
      simp only [HubCore.adminTopic] at named
      split at named
      · cases named
      · split at named
        · cases named
        · cases named
          split
          · simp
          · rename_i some
            intro empty
            apply some
            rw [Option.some.inj empty]
            rfl

theorem pepperId_of_adminRoomKeyDigest [HubCrypto] {turn : HubTurn}
    {roomName key : String} {digest : RoomKeyDigest}
    (made : turn.adminRoomKeyDigest roomName key = .ok digest) :
    digest.pepperId = turn.core.pepperId := by
  obtain ⟨_, -, made⟩ := bind_eq_ok made
  cases made
  rfl

theorem pepperId_of_replacementKey [HubCrypto] {turn : HubTurn}
    {roomName : String} {room : HubRoom} {change : ChannelHubAdminKeyChange}
    {replacement : Option (Option RoomKeyDigest)}
    (made : turn.replacementKey roomName room change = .ok replacement)
    (digest : RoomKeyDigest) (isDigest : replacement = some (some digest)) :
    digest.pepperId = turn.core.pepperId := by
  subst isDigest
  cases change with
  | keep => cases made
  | clear => cases made
  | set key =>
      obtain ⟨_, -, made⟩ := bind_eq_ok made
      dsimp only at made
      split at made
      · cases made
      · obtain ⟨drawn, isDrawn, made⟩ := bind_eq_ok made
        cases made
        exact pepperId_of_adminRoomKeyDigest isDrawn

section Rooms

variable [UnicodeTables]

theorem moves_adminSetRoomRole {turn after : HubTurn} {room : String}
    {target : IdentityHash} {role : ChannelHubAdminRoomRole} {enabled : Bool}
    (done : turn.adminSetRoomRole room target role enabled = .ok after) :
    Moves limits turn after := by
  obtain ⟨roomName, -, done⟩ := bind_eq_ok done
  obtain ⟨live, -, done⟩ := bind_eq_ok done
  dsimp only at done
  split at done
  · cases done
  · split at done
    · cases done
      exact .refl
    · cases done
      exact .single (Move.amend
        (fun found _ => amended_setRole _ _ target found)
        (announces_broadcastText _ roomName _))

theorem moves_adminSetRoomBan {turn after : HubTurn} {room : String}
    {target : IdentityHash} {banned : Bool}
    {actor : IdentityHash} (operator : actor ∈ turn.core.serverOps) (bans : ∀ roomName ban,
      turn.core.expelledByOwner actor (.setRoomBan room target banned) =
        some (roomName, target) → limits.permits (.expel roomName target ban))
    (done : turn.adminSetRoomBan room target banned = .ok after) :
    Moves limits turn after := by
  obtain ⟨roomName, named, done⟩ := bind_eq_ok done
  obtain ⟨live, required, done⟩ := bind_eq_ok done
  obtain ⟨held, registered⟩ := held_of_requireRegistered required
  have normed := normed_of_adminRoomName named
  dsimp only at done
  split at done
  · cases done
  · rename_i spared
    split at done
    · rename_i ban
      have permitted : ∀ ban, limits.permits (.expel roomName target ban) := by
        intro stays
        refine bans roomName stays ?_
        have other : ¬ target ∈ turn.core.serverOps := fun known =>
          spared ⟨ban, known⟩
        simp [HubCore.expelledByOwner, ban, normed, Except.toOption,
          Option.filter, operator, other, held, registered]
      split at done
      · rename_i known
        cases done
        refine .head (move_modifyRoom turn roomName
          fun found foundHeld => ?_)
          (.single (Move.expel (permitted false)))
        have equal : found = live :=
          Option.some.inj (foundHeld.symm.trans held)
        subst equal
        rw [FiniteSet.insert_of_mem known]
        exact ⟨rfl, fun _ => id⟩
      · cases done
        exact .single (Move.ban (permitted true))
    · split at done
      · cases done
        refine .single (Move.amend (fun found _ => ?_) (.refl _))
        exact ⟨rfl, rfl, rfl,
          fun other kept => ((FiniteSet.mem_erase _ _ _).mp kept).2,
          fun held => ⟨held.topic, held.key⟩, fun _ held => ⟨held, rfl⟩⟩
      · cases done
        exact .refl

theorem moves_adminSetInvitation {turn after : HubTurn} {room : String}
    {target : IdentityHash} {invited : Bool}
    (done : turn.adminSetInvitation room target invited = .ok after) :
    Moves limits turn after := by
  obtain ⟨roomName, -, done⟩ := bind_eq_ok done
  obtain ⟨live, -, done⟩ := bind_eq_ok done
  dsimp only at done
  split at done
  · split at done
    · cases done
    · cases done
      refine .single (Move.amend (fun found _ => ?_) ⟨_, ?_, rfl⟩)
      · exact ⟨rfl, rfl, rfl, fun _ => id,
          fun held => ⟨held.topic, held.key⟩, fun _ held => ⟨held, rfl⟩⟩
      intro send member
      obtain ⟨link, -, rfl⟩ := List.mem_map.mp member
      exact plain_hubNotice _ link _ _
  · split at done
    · cases done
      exact .refl
    · cases done
      refine .single (Move.amend (fun found _ => ?_) (.refl _))
      exact ⟨rfl, rfl, rfl, fun _ => id,
        fun held => ⟨held.topic, held.key⟩,
        fun _ held => ⟨(HubRoom.leases_of_erase rfl held).2, rfl⟩⟩

theorem moves_adminKick {turn after : HubTurn} {room : String} {target : IdentityHash}
    {actor : IdentityHash} (operator : actor ∈ turn.core.serverOps) (expels : ∀ roomName ban,
      turn.core.expelledByOwner actor (.kick room target) =
        some (roomName, target) → limits.permits (.expel roomName target ban))
    (done : turn.adminKick room target = .ok after) :
    Moves limits turn after := by
  obtain ⟨roomName, named, done⟩ := bind_eq_ok done
  have normed := normed_of_adminRoomName named
  split at done
  · cases done
  · rename_i present
    split at done
    · cases done
    · rename_i spared
      split at done
      · cases done
      · cases done
        refine .single (Move.expel (expels roomName false ?_))
        have held : (turn.core.rooms.lookup roomName).isSome = true := by
          simpa [Option.isSome_iff_ne_none] using present
        simp [HubCore.expelledByOwner, normed, Except.toOption,
          Option.filter, operator, spared, held]

end Rooms

theorem moves_adminSetHubBan {turn after : HubTurn} {target : IdentityHash}
    {banned : Bool} (closes : ¬ target ∈ turn.core.serverOps →
      ¬ target ∈ turn.core.klines → banned = true →
        ∀ link, turn.core.sessionIdentity link = some target → limits.permits (.close link))
    (done : turn.adminSetHubBan target banned = .ok after) :
    Moves limits turn after := by
  unfold adminSetHubBan at done
  split at done
  · cases done
  · rename_i spared
    split at done
    · rename_i ban
      split at done
      · cases done
        exact .refl
      · rename_i fresh
        cases done
        exact .single (Move.kline (closes
          (fun operator => spared ⟨ban, operator⟩) fresh ban) (.refl _))
    · split at done
      · cases done
        exact .single Move.unkline
      · cases done
        exact .refl

section Mutation

variable [UnicodeTables] [HubCrypto]

theorem moves_adminMutate {turn after : HubTurn} {actor : IdentityHash}
    {mutation : ChannelHubAdminMutation} (unwritten : turn.Unwritten)
    (founds : ∀ raw roomName, turn.core.normRoom raw = .ok roomName → limits.names roomName)
    (expels : ∀ roomName target ban,
      turn.core.expelledByOwner actor mutation = some (roomName, target) →
        limits.permits (.expel roomName target ban))
    (closes : ∀ target, mutation = .setHubBan target true →
      actor ∈ turn.core.serverOps → ¬ target ∈ turn.core.serverOps →
        ¬ target ∈ turn.core.klines →
        ∀ link, turn.core.sessionIdentity link = some target → limits.permits (.close link))
    (done : turn.adminMutate actor mutation = .ok after) :
    Moves limits turn after := by
  unfold adminMutate at done
  split at done
  · cases done
  · rename_i operator
    cases mutation with
    | createChannel room topic policy joinKey =>
        obtain ⟨roomName, isName, done⟩ := bind_eq_ok done
        obtain ⟨topic, isTopic, done⟩ := bind_eq_ok done
        have named := founds room roomName (normed_of_adminRoomName isName)
        have someTopic := ne_of_adminTopic isTopic
        split at done
        · cases done
        · split at done
          · cases done
          · split at done
            · cases done
              exact moves_createChannel turn actor policy unwritten named someTopic (by simp)
            · obtain ⟨digest, isDigest, done⟩ := bind_eq_ok done
              cases done
              refine moves_createChannel turn actor policy unwritten named
                someTopic fun other same => ?_
              cases same
              exact pepperId_of_adminRoomKeyDigest isDigest
    | updateChannel room topic policy joinKey =>
        obtain ⟨roomName, -, done⟩ := bind_eq_ok done
        obtain ⟨live, required, done⟩ := bind_eq_ok done
        obtain ⟨topic, isTopic, done⟩ := bind_eq_ok done
        obtain ⟨replacement, isReplacement, done⟩ := bind_eq_ok done
        cases done
        exact moves_updateChannel turn roomName live topic policy
          replacement (held_of_requireRegistered required).1
          (ne_of_adminTopic isTopic)
          (pepperId_of_replacementKey isReplacement)
    | unregisterChannel room =>
        obtain ⟨roomName, -, done⟩ := bind_eq_ok done
        obtain ⟨live, -, done⟩ := bind_eq_ok done
        cases done
        exact moves_unregisterChannel turn roomName unwritten
    | setRoomRole room target role enabled => exact moves_adminSetRoomRole done
    | setRoomBan room target banned =>
        exact moves_adminSetRoomBan (not_not.mp operator)
          (fun roomName ban => expels roomName target ban) done
    | setInvitation room target invited => exact moves_adminSetInvitation done
    | kick room target =>
        exact moves_adminKick (not_not.mp operator)
          (fun roomName ban => expels roomName target ban) done
    | setHubBan target banned =>
        refine moves_adminSetHubBan (fun spared fresh ban => ?_) done
        subst ban
        exact closes target rfl (not_not.mp operator) spared fresh

end Mutation

/-! ## The clocks -/

theorem mem_roomsWhere (turn : HubTurn) (test : HubRoom → Bool) (roomName : String) :
    roomName ∈ turn.roomsWhere test ↔
      ∃ room, turn.core.rooms.lookup roomName = some room ∧
        test room = true := by
  simp only [roomsWhere, List.mem_map, List.mem_filter]
  constructor
  · rintro ⟨⟨name, room⟩, ⟨bound, passes⟩, rfl⟩
    exact ⟨room, (FiniteMap.mem_bindings_iff _ _ _).mp bound, passes⟩
  · rintro ⟨room, held, passes⟩
    exact ⟨(roomName, room), ⟨(FiniteMap.mem_bindings_iff _ _ _).mpr held, passes⟩, rfl⟩

/-- What each step of a loop does, the loop does. -/
theorem moves_foldl {α : Type} {step : HubTurn → α → HubTurn}
    (steps : ∀ turn item, Moves limits turn (step turn item))
    (items : List α) (turn : HubTurn) :
    Moves limits turn (items.foldl step turn) := by
  induction items generalizing turn with
  | nil => exact .refl
  | cons item rest ih => exact (steps turn item).trans (ih (step turn item))

theorem ambient_retireRooms (names : List String) (turn : HubTurn) :
    (names.foldl retireRoom turn).ambient = turn.ambient := by
  induction names generalizing turn with
  | nil => rfl
  | cons name rest ih => exact ih (turn.retireRoom name)

theorem moves_retireRooms (names : List String) (turn : HubTurn)
    (empty : ∀ name ∈ names, ∀ room,
      turn.core.rooms.lookup name = some room → room.members.isEmpty = true) :
    Moves limits turn (names.foldl retireRoom turn) := by
  induction names generalizing turn with
  | nil => exact .refl
  | cons name rest ih =>
      refine .head (Move.retire (empty name List.mem_cons_self)) (ih _ ?_)
      intro other member room held
      refine empty other (List.mem_cons_of_mem name member) room ?_
      simp only [retireRoom, pushPersist, push_core, mapCore_core,
        FiniteMap.lookup_erase_ite] at held
      split at held
      · cases held
      · exact held

theorem moves_pruneRegistry (turn : HubTurn) :
    Moves limits turn turn.pruneRegistry := by
  unfold pruneRegistry
  extract_lets now interval stale clamped
  split
  · exact .refl
  · split
    · exact .refl
    · split
      · exact .refl
      · have clamps : Move limits turn clamped := by
          refine Move.retouch fun name => ?_
          rw [FiniteMap.lookup_mapValues]
          cases turn.core.rooms.lookup name with
          | none => exact .none
          | some room =>
              refine .some ?_
              simp only
              split
              · exact ⟨rfl, fun _ => id⟩
              · exact ⟨rfl, fun _ => id⟩
        refine .head clamps (.tail (moves_retireRooms stale clamped ?_)
          (Move.lesserWrite (Or.inr ?_)))
        · intro name member room held
          obtain ⟨found, foundHeld, passes⟩ :=
            (mem_roomsWhere turn _ name).mp member
          simp only [clamped, mapCore_core, FiniteMap.lookup_mapValues,
            foundHeld, Option.map_some, Option.some.injEq] at held
          have empty : found.members.isEmpty = true := by
            simp only [isStale, isPrunable, Bool.and_eq_true] at passes
            exact passes.1.1.2
          rw [← held]
          split
          · exact empty
          · exact empty
        · rw [ambient_retireRooms]
          rfl

theorem moves_flushDirtyLastUsed (turn : HubTurn) :
    Moves limits turn turn.flushDirtyLastUsed := by
  refine moves_foldl (fun turn roomName => ?_) _ turn
  unfold flushLastUsed
  split
  · exact .refl
  · refine .tail (.single (move_modifyRoom turn roomName fun _ _ => ?_))
      (Move.lesserWrite (Or.inl ⟨_, _, rfl⟩))
    exact ⟨rfl, fun _ => id⟩

theorem moves_retryFailedPersists (turn : HubTurn) :
    Moves limits turn turn.retryFailedPersists := by
  unfold retryFailedPersists
  dsimp only
  have drained : Moves limits turn turn.drainRemovals :=
    .single Move.drain
  have restated : ∀ (turn : HubTurn) (roomName : String),
      Moves limits turn (turn.persistRoom roomName none) :=
    fun _ _ => .single Move.restate
  have projected := drained.trans
    (moves_foldl restated
      (turn.drainRemovals.roomsWhere fun room =>
        room.registered && room.persistDirty) turn.drainRemovals)
  split
  · exact projected.tail Move.restateKlines
  · exact projected

theorem moves_pruneTick (turn : HubTurn) :
    Moves limits turn turn.pruneTick :=
  ((moves_pruneRegistry turn).trans (moves_flushDirtyLastUsed _)).trans
    (moves_retryFailedPersists _)

theorem moves_resourceCycle (meters : limits.meters) (turn : HubTurn) :
    Moves limits turn turn.resourceCycle := by
  refine .tail (.single (Move.tend (fun link => ?_) fun _ link => ?_))
    (move_modifyAdmission meters _ _)
  · rw [FiniteMap.lookup_mapValues]
    cases turn.core.sessions.lookup link with
    | none => exact .none
    | some session => exact .some ⟨rfl, rfl, rfl⟩
  · rw [FiniteMap.lookup_mapValues, Option.map_map]
    rfl

theorem plain_close (hubHash : IdentityHash) (linkId : LinkId) :
    HubSend.Plain hubHash (.close linkId) :=
  trivial

theorem plain_resource (hubHash : IdentityHash) (linkId : LinkId)
    (envelope : Envelope) (payload : List UInt8) :
    HubSend.Plain hubHash (.resource linkId envelope payload) :=
  trivial

theorem moves_reapLinks (dead : List (LinkId × HubSessionCloseReason)) (turn : HubTurn)
    (closes : ∀ entry ∈ dead, limits.permits (.close entry.1))
    (loses : ∀ entry ∈ dead, entry.2.keepsLease = true → limits.loses entry.1) :
    Moves limits turn (dead.foldl reapLink turn) := by
  induction dead generalizing turn with
  | nil => exact .refl
  | cons entry rest ih =>
      have closed : Move limits turn (turn.closeSession entry.1 entry.2) :=
        .close (closes entry List.mem_cons_self) (loses entry List.mem_cons_self)
      exact .head closed (.head (Move.reply (plain_close _ entry.1))
        (ih _
          (fun later member =>
            closes later (List.mem_cons_of_mem entry member))
          fun later member =>
            loses later (List.mem_cons_of_mem entry member)))

theorem moves_pingLink (turn : HubTurn) (linkId : LinkId) :
    Moves limits turn (turn.pingLink linkId) := by
  refine ((Relation.ReflTransGen.single (move_modifySession turn linkId
    (fun _ => ?_) fun _ _ => ?_)).tail (move_modifyStats _ _)).tail
    (Move.reply (plain_hubEnvelope _ linkId none _ (Or.inr (Or.inr (Or.inl rfl)))))
  · exact ⟨rfl, rfl, rfl⟩
  · rfl

theorem moves_pingCycle (turn : HubTurn) (closes : ∀ link reason,
      (link, reason) ∈ deadLinks turn.core turn.ambient.instant →
        limits.permits (.close link) ∧ (reason.keepsLease = true → limits.loses link)) :
    Moves limits turn turn.pingCycle := by
  unfold pingCycle
  extract_lets core expired due
  have expires : Move limits turn expired := by
    refine Move.retouch fun name => ?_
    rw [FiniteMap.lookup_mapValues]
    cases turn.core.rooms.lookup name with
    | none => exact .none
    | some room =>
        refine .some ⟨rfl, fun identity held => ?_⟩
        rw [HubRoom.Leases, FiniteMap.lookup_retain] at held
        obtain ⟨expiry, kept⟩ := Option.isSome_iff_exists.mp held
        rw [HubRoom.Leases, (Option.filter_eq_some_iff.mp kept).1]
        rfl
  exact (Relation.ReflTransGen.head expires
    (moves_foldl moves_pingLink due expired)).trans
    (moves_reapLinks _ _
      (fun entry member => (closes entry.1 entry.2 member).1)
      fun entry member => (closes entry.1 entry.2 member).2)

/-! ## Packets -/

theorem moves_pushGreeting [HubCrypto] (turn : HubTurn) (linkId : LinkId) (greeting : String) :
    Moves limits turn (turn.pushGreeting linkId greeting) := by
  unfold pushGreeting
  extract_lets budget chunked
  have chunks : Moves limits turn chunked :=
    moves_pushNoticeEntries turn linkId _ _ _ _
  split
  · cases resource : turn.pushGreetingResource linkId greeting with
    | none => exact chunks
    | some after =>
        unfold pushGreetingResource at resource
        dsimp only at resource
        split at resource
        · cases resource
        · split at resource
          · cases resource
          · split at resource
            · cases resource
            · split at resource
              · cases resource
              · cases resource
                refine .tail (.single (move_modifySession turn linkId
                  (fun _ => ?_) fun _ _ => ?_))
                  (Move.reply (plain_resource _ _ _ _))
                · exact ⟨rfl, rfl, rfl⟩
                · rfl
  · exact chunks

theorem moves_onHello [HubCrypto] (turn : HubTurn) (linkId : LinkId)
    (envelope : Envelope) (welcomes : limits.permits (.welcome linkId)) :
    Moves limits turn (turn.onHello linkId envelope) := by
  unfold onHello
  split
  · exact .refl
  · rename_i session live
    extract_lets nickname heard welcome welcomedTurn
    have hears : Move limits turn heard :=
      move_modifySession turn linkId (fun _ => ⟨rfl, rfl, rfl⟩)
        fun _ _ => rfl
    refine .head hears ?_
    split
    · exact .single (move_pushError heard _ _ _)
    · have welcomed : Moves limits heard welcomedTurn :=
        .tail (.single (Move.welcome welcomes))
          (Move.reply (plain_hubEnvelope _ linkId none _ (Or.inr (Or.inr (Or.inr rfl)))))
      split
      · exact welcomed
      · split
        · exact welcomed
        · exact welcomed.trans (moves_pushGreeting _ _ _)

end HubTurn

end Ratspeak
