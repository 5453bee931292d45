import Ratspeak.Hub.TokenWalk

/-!
# No ghost rooms

Along a run every room is registered or has a member, and every token belongs
to a room that is there, unless a command removes the last identity from a
room that nobody registered.  A room that is founded again under an old name
draws a token of its own.
-/

namespace Ratspeak

open Library

namespace HubTurn

variable {spared : String → Prop} {start : HubCore} {turn : HubTurn}

/-! ## Joins and parts -/

section Join

variable [UnicodeTables]

theorem neat_onPart (linkId : LinkId) (envelope : Envelope)
    (neat : Neat spared start turn.core) :
    Neat spared start (turn.onPart linkId envelope).core := by
  unfold onPart
  split
  · exact neat
  · split
    · exact neat
    · split
      · exact neat
      · exact neat_leaveRoom _ linkId _ neat

variable [HubCrypto]

omit [UnicodeTables] in
/-- A room that is spared until somebody joins it is in order afterwards. -/
theorem neat_joinRoom {linkId : LinkId} {identity : IdentityHash}
    {envelope : Envelope} {roomName : String} {room : HubRoom}
    (there : (turn.core.rooms.lookup roomName).isSome = true)
    (refused : (joinRefusal turn.core roomName room identity
      envelope.textBody turn.ambient.unix).isSome = true → Neat spared start turn.core)
    (neat : Neat (fun name => name = roomName ∨ spared name) start
      turn.core) :
    Neat spared start
      (turn.joinRoom linkId identity envelope roomName room).core := by
  unfold joinRoom
  split
  · rename_i text refusal
    exact refused (by rw [refusal]; rfl)
  · refine neat_mintRoomToken ?_ ?_
    · rw [push_core, enterRoom_core, seatMember_isSome]
      exact there
    · rw [push_core, enterRoom_core]
      exact neat_seatMember linkId identity neat

omit [UnicodeTables] in
/-- The founder of a room is not refused. -/
theorem founder_not_refused {core : HubCore} {identity : IdentityHash}
    (operator : identity ∈ core.serverOps) (roomName : String)
    (provided : Option String) (now : WallTime) :
    joinRefusal core roomName
      { ops := (∅ : FiniteSet IdentityHash).insert identity } identity
      provided now = none := by
  simp [joinRefusal, operator]

theorem neat_onJoin (linkId : LinkId) (envelope : Envelope)
    (neat : Neat spared start turn.core) :
    Neat spared start (turn.onJoin linkId envelope).core := by
  unfold onJoin
  split
  · exact neat
  · split
    · exact neat
    · rename_i identity proved
      split
      · exact neat
      · split
        · exact neat
        · rename_i roomName normed
          split
          · exact neat
          · split
            · rename_i room held
              exact neat_joinRoom (isSome_of_held held) (fun _ => neat)
                (neat.mono fun _ => Or.inr)
            · split
              · exact neat
              · rename_i operator
                have founded : Neat
                    (fun name => name = roomName ∨ spared name) start
                    (turn.foundRoom roomName identity).core :=
                  neat_insertRoom neat
                refine neat_joinRoom ?_ (fun refused => ?_) founded
                · simp [foundRoom]
                · have known : identity ∈
                      (turn.foundRoom roomName identity).core.serverOps :=
                    not_not.mp operator
                  rw [founder_not_refused known] at refused
                  cases refused

end Join

/-! ## Resources -/

theorem neat_notePacket (linkId : LinkId) (neat : Neat spared start turn.core) :
    Neat spared start (turn.notePacket linkId).1.core := by
  unfold notePacket
  split
  · exact neat
  · split
    · exact neat
    · exact neat.same rfl rfl rfl

theorem neat_notePackets (linkId : LinkId) (count : Nat) (neat : Neat spared start turn.core) :
    Neat spared start (turn.notePackets linkId count).1.core := by
  induction count generalizing turn with
  | zero => exact neat
  | succ count ih => exact ih (neat_notePacket linkId neat)

/-- A loop of sends leaves the state as it is. -/
theorem foldl_core {α : Type} {sends : HubTurn → α → HubTurn}
    (silent : ∀ turn item, (sends turn item).core = turn.core)
    (items : List α) (turn : HubTurn) :
    (items.foldl sends turn).core = turn.core := by
  induction items generalizing turn with
  | nil => rfl
  | cons item rest ih => rw [List.foldl_cons, ih, silent]

theorem neat_fanOutResourceNotice (linkId : LinkId)
    (identity : IdentityHash) (roomName text : String) (neat : Neat spared start turn.core) :
    Neat spared start
      (turn.fanOutResourceNotice linkId identity roomName text).core := by
  unfold fanOutResourceNotice
  extract_lets nickname budget shed nickname' budget' chunks
  have paid := neat_notePackets linkId chunks.length neat
  dsimp only
  split
  · exact paid.same rfl rfl rfl
  · split
    · exact paid
    · rename_i room held
      have sent : ∀ (turn : HubTurn) (chunk : String),
          (turn.fanOut room
            { Envelope.new turn.ambient.ms .notice identity with
              room := some roomName
              nickname := nickname'
              body := some (.text chunk) }).core = turn.core := by
        intro turn chunk
        rw [fanOut, pushAll_core]
      refine neat_mintRoomToken ?_ ?_
      · rw [foldl_core sent]
        exact Option.isSome_iff_exists.mpr ⟨room, held⟩
      · rw [foldl_core sent]
        exact paid.same rfl rfl rfl

section Resources

variable [UnicodeTables]

theorem neat_onResourceEnvelope (linkId : LinkId) (envelope : Envelope)
    (neat : Neat spared start turn.core) :
    Neat spared start (turn.onResourceEnvelope linkId envelope).core := by
  have rejects : ∀ (turn : HubTurn) text room,
      Neat spared start turn.core →
        Neat spared start (turn.rejectResource linkId text room).core :=
    fun turn text room neat => neat.same rfl rfl rfl
  unfold onResourceEnvelope
  dsimp only
  split
  · exact rejects _ _ _ neat
  · split
    · exact neat
    · split
      · exact rejects _ _ _ neat
      · split
        · exact rejects _ _ _ neat
        · split
          · exact rejects _ _ _ neat
          · split
            · exact rejects _ _ _ neat
            · split
              · exact rejects _ _ _ neat
              · refine neat_withRelayGate
                  (fun turn neat => neat.same rfl rfl rfl)
                  (fun neat => ?_) neat
                split
                · exact neat.same rfl rfl rfl
                · exact rejects _ _ _ (neat.same rfl rfl rfl)

end Resources

theorem neat_onResourceCompleted [HubCrypto] (linkId : LinkId)
    (resourceHash : Bytes 32) (data : List UInt8) (hasMetadata : Bool)
    (neat : Neat spared start turn.core) :
    Neat spared start (turn.onResourceCompleted linkId resourceHash data
      hasMetadata).core := by
  unfold onResourceCompleted
  extract_lets retired rejected taken claimed rejectedClaim
  have retires : Neat spared start retired.core := neat.same rfl rfl rfl
  have claims : Neat spared start claimed.core := retires.same rfl rfl rfl
  have rejects : Neat spared start rejectedClaim.core :=
    claims.same rfl rfl rfl
  split
  · exact retires
  · split
    · exact retires
    · split
      · exact retires.same rfl rfl rfl
      · split
        · exact rejects
        · dsimp only
          split
          · exact rejects
          · split
            · exact claims.same rfl rfl rfl
            · exact neat_withRelayGate
                (fun turn neat => neat.same rfl rfl rfl)
                (neat_fanOutResourceNotice linkId _ _ _) claims

/-! ## Owner mutations -/

theorem neat_createChannel [UnicodeTables] [HubCrypto] (roomName : String)
    (actor : IdentityHash) (topic : Option String)
    (policy : ChannelHubAdminRoomPolicy) (key : Option RoomKeyDigest)
    (neat : Neat spared start turn.core) :
    Neat spared start
      (turn.createChannel roomName actor topic policy key).core := by
  have ensured : Neat (fun name => name = roomName ∨ spared name) start
      (turn.ensureRoom roomName).core := by
    unfold ensureRoom
    split
    · exact neat.mono fun _ => Or.inr
    · exact neat_insertRoom neat
  have registered : Neat spared start
      ((turn.ensureRoom roomName).modifyRoom roomName fun room =>
        { applyAdminRoomPolicy policy
            { room with topic := topic, key := key } with
          registered := true
          ops := room.ops.insert actor
          lastUsed := turn.ambient.unix
          persistDirty := false }).core :=
    neat_settleRoom (fun _ => Or.inl rfl) ensured
  have settled := @Neat.same spared start _
    (((turn.ensureRoom roomName).modifyRoom roomName fun room =>
      { applyAdminRoomPolicy policy
          { room with topic := topic, key := key } with
        registered := true
        ops := room.ops.insert actor
        lastUsed := turn.ambient.unix
        persistDirty := false }).mapCore fun core =>
      { core with
        pendingRemovals := core.pendingRemovals.erase roomName }).core
    registered rfl rfl rfl
  exact neat_persistRoom roomName none (neat_of_announces
    ((announces_broadcastAdminTopic _ roomName).trans
      (announces_broadcastMode _ roomName)) settled)

theorem neat_unregisterChannel (roomName : String) (neat : Neat spared start turn.core) :
    Neat spared start (turn.unregisterChannel roomName).core := by
  have ended : Neat (fun name => name = roomName ∨ spared name) start
      ((turn.modifyRoom roomName fun room =>
        { room with
          registered := false
          rejoinUntil := ∅
          persistDirty := false }).broadcastMode roomName).core :=
    neat_of_announces (announces_broadcastMode _ roomName) (neat_spareRoom roomName neat)
  exact (neat_dropIfEmpty ended).same rfl rfl rfl

theorem members_applyAdminRoomPolicy (policy : ChannelHubAdminRoomPolicy) (room : HubRoom) :
    (applyAdminRoomPolicy policy room).members = room.members ∧
      (applyAdminRoomPolicy policy room).registered = room.registered :=
  ⟨rfl, rfl⟩

section Mutation

variable [UnicodeTables] [HubCrypto]

omit [UnicodeTables] [HubCrypto] in
theorem neat_updateChannel (roomName : String) (room : HubRoom)
    (topic : Option String) (policy : ChannelHubAdminRoomPolicy)
    (replacement : Option (Option RoomKeyDigest)) (neat : Neat spared start turn.core) :
    Neat spared start
      (turn.updateChannel roomName room topic policy replacement).core := by
  unfold updateChannel
  extract_lets topicChanged modesChanged updated announcedTopic announcedMode
  have amended : Neat spared start updated.core :=
    neat_modifyRoom roomName (fun room =>
      ⟨(members_applyAdminRoomPolicy policy room).1, id⟩) neat
  split
  · exact amended
  · have first : Announces updated announcedTopic := by
      simp only [announcedTopic]
      split
      · exact announces_broadcastAdminTopic updated roomName
      · exact .refl updated
    have second : Announces announcedTopic announcedMode := by
      simp only [announcedMode]
      split
      · exact announces_broadcastMode announcedTopic roomName
      · exact .refl announcedTopic
    exact neat_persistRoom roomName none (neat_of_announces (first.trans second) amended)

theorem neat_adminCreateChannel {after : HubTurn} {actor : IdentityHash}
    {room : String} {topic : Option String}
    {policy : ChannelHubAdminRoomPolicy} {joinKey : Option String}
    (done : turn.adminCreateChannel actor room topic policy joinKey = .ok after)
    (neat : Neat spared start turn.core) : Neat spared start after.core := by
  obtain ⟨roomName, -, done⟩ := bind_eq_ok done
  obtain ⟨topic, -, done⟩ := bind_eq_ok done
  split at done
  · cases done
  · split at done
    · cases done
    · split at done
      · cases done
        exact neat_createChannel roomName actor topic policy none neat
      · obtain ⟨digest, -, done⟩ := bind_eq_ok done
        cases done
        exact neat_createChannel roomName actor topic policy _ neat

omit [HubCrypto] in
theorem neat_adminSetRoomRole {after : HubTurn} {room : String}
    {target : IdentityHash} {role : ChannelHubAdminRoomRole} {enabled : Bool}
    (done : turn.adminSetRoomRole room target role enabled = .ok after)
    (neat : Neat spared start turn.core) : Neat spared start after.core := by
  obtain ⟨roomName, -, done⟩ := bind_eq_ok done
  obtain ⟨live, -, done⟩ := bind_eq_ok done
  dsimp only at done
  split at done
  · cases done
  · split at done
    · cases done
      exact neat
    · cases done
      exact neat_persistRoom roomName none
        (neat_of_announces (announces_broadcastText _ roomName _)
          (neat_modifyRoom roomName (members_setRole _ target) neat))

omit [HubCrypto] in
theorem neat_adminSetRoomBan {after : HubTurn} {room : String}
    {target : IdentityHash} {banned : Bool}
    (done : turn.adminSetRoomBan room target banned = .ok after)
    (neat : Neat spared start turn.core) : Neat spared start after.core := by
  obtain ⟨roomName, -, done⟩ := bind_eq_ok done
  obtain ⟨live, -, done⟩ := bind_eq_ok done
  dsimp only at done
  split at done
  · cases done
  · split at done
    · have ejected : Neat spared start
          ((turn.modifyRoom roomName fun room =>
            { room with
              bans := room.bans.insert target }).ejectIdentityFromRoom
            roomName target ("banned from " ++ roomName)).core :=
        neat_ejectIdentityFromRoom roomName target _
          (neat_modifyRoom roomName (fun _ => ⟨rfl, id⟩) neat)
      split at done
      · cases done
        exact ejected
      · cases done
        exact neat_persistRoom roomName none ejected
    · split at done
      · cases done
        exact neat_persistRoom roomName none
          (neat_modifyRoom roomName (fun _ => ⟨rfl, id⟩) neat)
      · cases done
        exact neat

omit [HubCrypto] in
theorem neat_adminSetInvitation {after : HubTurn} {room : String}
    {target : IdentityHash} {invited : Bool}
    (done : turn.adminSetInvitation room target invited = .ok after)
    (neat : Neat spared start turn.core) : Neat spared start after.core := by
  obtain ⟨roomName, -, done⟩ := bind_eq_ok done
  obtain ⟨live, -, done⟩ := bind_eq_ok done
  dsimp only at done
  split at done
  · split at done
    · cases done
    · cases done
      have added : Neat spared start (turn.addInvite roomName target).core :=
        neat_modifyRoom roomName (fun _ => ⟨rfl, id⟩) neat
      refine neat_persistRoom roomName none ?_
      rw [pushAll_core]
      exact added
  · split at done
    · cases done
      exact neat
    · cases done
      exact neat_persistRoom roomName none (neat_modifyRoom roomName (fun _ => ⟨rfl, id⟩) neat)

omit [HubCrypto] in
theorem neat_adminKick {after : HubTurn} {room : String} {target : IdentityHash}
    (done : turn.adminKick room target = .ok after)
    (neat : Neat spared start turn.core) : Neat spared start after.core := by
  obtain ⟨roomName, -, done⟩ := bind_eq_ok done
  split at done
  · cases done
  · split at done
    · cases done
    · split at done
      · cases done
      · cases done
        exact neat_ejectIdentityFromRoom roomName target _ neat

omit [UnicodeTables] [HubCrypto] in
theorem neat_adminSetHubBan {after : HubTurn} {target : IdentityHash}
    {banned : Bool} (done : turn.adminSetHubBan target banned = .ok after)
    (neat : Neat spared start turn.core) : Neat spared start after.core := by
  unfold adminSetHubBan at done
  split at done
  · cases done
  · split at done
    · split at done
      · cases done
        exact neat
      · cases done
        exact neat_dismissIdentity target (neat_recordKline target none neat)
    · split at done
      · cases done
        exact neat.same rfl rfl rfl
      · cases done
        exact neat

/-- The owner removes members without recording it, so no mutation leaves a
token behind. -/
theorem neat_adminMutate {after : HubTurn} {actor : IdentityHash}
    {mutation : ChannelHubAdminMutation} (done : turn.adminMutate actor mutation = .ok after)
    (neat : Neat spared start turn.core) : Neat spared start after.core := by
  unfold adminMutate at done
  split at done
  · cases done
  · cases mutation with
    | createChannel room topic policy joinKey => exact neat_adminCreateChannel done neat
    | updateChannel room topic policy joinKey =>
        obtain ⟨roomName, -, done⟩ := bind_eq_ok done
        obtain ⟨live, -, done⟩ := bind_eq_ok done
        obtain ⟨topic, -, done⟩ := bind_eq_ok done
        obtain ⟨replacement, -, done⟩ := bind_eq_ok done
        cases done
        exact neat_updateChannel roomName live topic policy replacement neat
    | unregisterChannel room =>
        obtain ⟨roomName, -, done⟩ := bind_eq_ok done
        obtain ⟨live, -, done⟩ := bind_eq_ok done
        cases done
        exact neat_unregisterChannel roomName neat
    | setRoomRole room target role enabled => exact neat_adminSetRoomRole done neat
    | setRoomBan room target banned => exact neat_adminSetRoomBan done neat
    | setInvitation room target invited => exact neat_adminSetInvitation done neat
    | kick room target => exact neat_adminKick done neat
    | setHubBan target banned => exact neat_adminSetHubBan done neat

end Mutation

/-! ## The clocks -/

theorem neat_retireRoom (roomName : String) (neat : Neat spared start turn.core) :
    Neat spared start (turn.retireRoom roomName).core :=
  neat.eraseRoom rfl rfl rfl fun _ _ => id

theorem neat_pruneRegistry (neat : Neat spared start turn.core) :
    Neat spared start turn.pruneRegistry.core := by
  unfold pruneRegistry
  extract_lets now interval stale clamped
  split
  · exact neat
  · split
    · exact neat
    · split
      · exact neat
      · have clamps : Neat spared start clamped.core := by
          refine neat_mapRooms (fun name room => ?_) neat
          split
          · exact ⟨rfl, id⟩
          · exact ⟨rfl, id⟩
        exact neat_foldl stale (fun turn roomName =>
          neat_retireRoom roomName) clamps

theorem neat_flushDirtyLastUsed (neat : Neat spared start turn.core) :
    Neat spared start turn.flushDirtyLastUsed.core := by
  refine neat_foldl _ (fun turn roomName neat => ?_) neat
  unfold flushLastUsed
  split
  · exact neat
  · exact neat_modifyRoom roomName (fun _ => ⟨rfl, id⟩) neat

theorem neat_retryFailedPersists (neat : Neat spared start turn.core) :
    Neat spared start turn.retryFailedPersists.core := by
  have drained : Neat spared start turn.drainRemovals.core := by
    unfold drainRemovals
    rw [pushAll_core]
    exact neat.same rfl rfl rfl
  have projected : Neat spared start
      ((turn.drainRemovals.roomsWhere fun room =>
        room.registered && room.persistDirty).foldl
        (fun turn roomName => turn.persistRoom roomName none)
        turn.drainRemovals).core :=
    neat_foldl _ (fun turn roomName => neat_persistRoom roomName none)
      drained
  unfold retryFailedPersists
  dsimp only
  split
  · exact projected.same rfl rfl rfl
  · exact projected

theorem neat_pingCycle (neat : Neat spared start turn.core) :
    Neat spared start turn.pingCycle.core := by
  have expired : Neat spared start (turn.mapCore fun core =>
      { core with
        rooms := FiniteMap.mapValues
          (fun _ room =>
            { room with
              rejoinUntil := FiniteMap.retain
                (fun _ expires => turn.ambient.unix < expires)
                room.rejoinUntil })
          core.rooms }).core :=
    neat_mapRooms (fun _ _ => ⟨rfl, id⟩) neat
  refine neat_foldl _ (fun turn dead => neat_closeSession dead.1 dead.2)
    (neat_foldl _ (fun turn link neat => ?_) expired)
  exact neat.same rfl rfl rfl

/-! ## Packets -/

section Packets

variable [UnicodeTables] [HubCrypto]

omit [UnicodeTables] in
theorem neat_onHello (linkId : LinkId) (envelope : Envelope)
    (neat : Neat spared start turn.core) :
    Neat spared start (turn.onHello linkId envelope).core := by
  have greets : ∀ (turn : HubTurn) greeting,
      Neat spared start turn.core →
        Neat spared start (turn.pushGreeting linkId greeting).core := by
    intro turn greeting neat
    have chunked := neat_pushNoticeEntries linkId .none [greeting] "" none neat
    unfold pushGreeting
    dsimp only
    split
    · unfold pushGreetingResource
      dsimp only
      split
      · exact chunked
      · split
        · exact chunked
        · split
          · exact chunked
          · split
            · exact chunked
            · exact neat.same rfl rfl rfl
    · exact chunked
  unfold onHello
  split
  · exact neat
  · dsimp only
    split
    · exact neat.same rfl rfl rfl
    · split
      · exact neat.same rfl rfl rfl
      · split
        · exact neat.same rfl rfl rfl
        · exact greets _ _ (neat.same rfl rfl rfl)

theorem neat_onRelay (linkId : LinkId) (envelope : Envelope)
    (outlasts : ∀ identity, turn.core.sessionIdentity linkId =
        some identity → isSlashText envelope = true →
      ∀ roomName target,
        turn.core.expelledBySlash identity envelope =
            some (roomName, target) →
          turn.core.outlasts roomName target = true)
    (neat : Neat spared start turn.core) :
    Neat spared start (turn.onRelay linkId envelope).core := by
  unfold onRelay
  split
  · exact neat
  · rename_i identity proved
    dsimp only
    split
    · rename_i slash
      split
      · rename_i after handled
        exact neat_handleSlashCommand (outlasts identity proved slash) handled neat
      · exact neat
    · split
      · split
        · exact neat
        · split
          · exact neat
          · exact neat_relayToRoom linkId identity _ neat
      · split
        · exact neat_onDirectNotice linkId identity _ neat
        · split
          · exact neat
          · exact neat_relayToRoom linkId identity _ neat

/-- The command in an envelope removes nobody from a room that goes with
them. -/
def Outlasted (turn : HubTurn) (linkId : LinkId) (envelope : Envelope) :
    Prop :=
  ∀ identity, turn.core.sessionIdentity linkId = some identity →
    envelope.messageType ∈ [MessageType.message, MessageType.notice, MessageType.action] →
    isSlashText envelope = true → ∀ roomName target,
      turn.core.expelledBySlash identity envelope =
          some (roomName, target) →
        turn.core.outlasts roomName target = true

theorem neat_onWelcomedEnvelope (linkId : LinkId) (envelope : Envelope)
    (outlasted : turn.Outlasted linkId envelope) (neat : Neat spared start turn.core) :
    Neat spared start (turn.onWelcomedEnvelope linkId envelope).core := by
  have relays : envelope.messageType ∈
      [MessageType.message, MessageType.notice, MessageType.action] →
        Neat spared start (turn.onRelay linkId envelope).core :=
    fun kind => neat_onRelay linkId envelope
      (fun identity proved => outlasted identity proved kind) neat
  unfold onWelcomedEnvelope
  split
  · exact neat_onJoin linkId envelope (neat.same rfl rfl rfl)
  · exact neat_onPart linkId envelope (neat.same rfl rfl rfl)
  · rename_i kind
    exact relays (by simp [kind])
  · rename_i kind
    exact relays (by simp [kind])
  · rename_i kind
    exact relays (by simp [kind])
  · exact neat_onResourceEnvelope linkId envelope neat
  · exact neat

theorem neat_delivered {core : HubCore} {input : HubInput}
    (outlasts : ∀ linkId identity envelope,
      core.commanded input = some (linkId, identity, envelope) →
        ∀ roomName target,
          core.expelledBySlash identity envelope =
              some (roomName, target) →
            core.outlasts roomName target = true)
    {linkId : LinkId} {identity : IdentityHash} {envelope : Envelope}
    (delivered : core.delivered input = some (linkId, identity, envelope))
    (neat : Neat spared start core) :
    Neat spared start
      (((core.turn input.ambient).received linkId
        envelope).onWelcomedEnvelope linkId envelope).core := by
  have accounted := accounted_received (core.turn input.ambient) linkId envelope
  have ready : Neat spared start
      ((core.turn input.ambient).received linkId envelope).core := by
    obtain ⟨_, _, -, same⟩ := accounted
    rw [same]
    exact neat.same rfl rfl rfl
  refine neat_onWelcomedEnvelope linkId envelope
    (fun sender proved kind slash roomName target named => ?_) ready
  rw [accounted.sessionIdentity] at proved
  have known : core.sessionIdentity linkId = some identity :=
    HubCore.sessionIdentity_of_delivered delivered
  have same : sender = identity :=
    Option.some.inj (proved.symm.trans known)
  subst same
  have commanded : core.commanded input =
      some (linkId, sender, envelope) := by
    rw [HubCore.commanded, delivered]
    simp [Option.filter, slash, kind]
  rw [accounted.expelledBySlash] at named
  have stays := outlasts linkId sender envelope commanded roomName target named
  unfold HubCore.outlasts at stays ⊢
  simp only [accounted.sessionIdentity]
  obtain ⟨_, _, -, sameCore⟩ := accounted
  rw [sameCore]
  exact stays

/-- A packet that nobody is removed by, apart from rooms that stay. -/
theorem neat_onPacket {core : HubCore} {input : HubInput}
    (outlasts : ∀ linkId identity envelope,
      core.commanded input = some (linkId, identity, envelope) →
        ∀ roomName target,
          core.expelledBySlash identity envelope =
              some (roomName, target) →
            core.outlasts roomName target = true)
    {linkId : LinkId} {decoded : Option Envelope}
    (event : input.event = .linkPacket linkId decoded) (neat : Neat spared start core) :
    Neat spared start
      ((core.turn input.ambient).onPacket linkId decoded).core := by
  have paid : Neat spared start
      ((core.turn input.ambient).notePacket linkId).1.core :=
    @neat_notePacket spared start (core.turn input.ambient) linkId neat
  unfold onPacket
  dsimp only
  split
  · exact paid.same rfl rfl rfl
  · rename_i allowed
    split
    · rename_i envelope
      unfold onEnvelope
      split
      · exact paid
      · rename_i charged live
        split
        · exact paid
        · rename_i identified
          split
          · exact paid.same rfl rfl rfl
          · rename_i fresh
            have remembered : Neat spared start
                ((core.turn input.ambient).received linkId envelope).core :=
              paid.same rfl rfl rfl
            split
            · exact remembered
            · exact remembered.same rfl rfl rfl
            · exact neat_onHello linkId envelope remembered
            · split
              · rename_i welcomed
                obtain ⟨identity, delivers⟩ := delivered_of_paid event live
                  identified fresh (by simpa using allowed) welcomed
                exact neat_delivered outlasts delivers neat
              · exact remembered
    · exact paid.same rfl rfl rfl

end Packets

end HubTurn

/-! ## Steps -/

section Steps

variable [UnicodeTables] [HubCrypto]

/-- No command removes the last identity from a room that is not
registered. -/
def HubCore.RemovesInTime (core : HubCore) (input : ServiceInput) : Prop :=
  (((core.commanded input.input).bind fun (_, identity, envelope) =>
    core.expelledBySlash identity envelope).all
    fun (roomName, target) => core.outlasts roomName target) = true

instance (core : HubCore) (input : ServiceInput) :
    Decidable (core.RemovesInTime input) :=
  inferInstanceAs (Decidable (_ = true))

theorem neat_step {spared : String → Prop} {start core : HubCore}
    {input : ServiceInput} (neat : Neat spared start core) (inTime : core.RemovesInTime input) :
    Neat spared start (core.step input.input) := by
  have outlasts : ∀ linkId identity envelope,
      core.commanded input.input = some (linkId, identity, envelope) →
        ∀ roomName target,
          core.expelledBySlash identity envelope =
              some (roomName, target) →
            core.outlasts roomName target = true := by
    intro linkId identity envelope commanded roomName target named
    simpa [HubCore.RemovesInTime, commanded, named] using inTime
  have turned : Neat spared start (core.turn input.input.ambient).core :=
    neat
  unfold HubCore.step HubCore.handle
  cases event : input.input.event with
  | adminMutation actor mutation =>
      simp only [HubTurn.handle]
      split
      · exact turned
      · rename_i after done
        exact HubTurn.neat_adminMutate done turned
  | linkEstablished linkId =>
      simp only [HubTurn.handle, HubTurn.onLinkEstablished, HubTurn.openSession]
      split
      · exact turned
      · exact turned.same rfl rfl rfl
  | linkIdentified linkId identity =>
      simp only [HubTurn.handle, HubTurn.onLinkIdentified]
      split
      · exact turned.same rfl rfl rfl
      · have opened : Neat spared start
            ((core.turn input.input.ambient).openSession linkId).core := by
          unfold HubTurn.openSession
          split
          · exact turned
          · exact turned.same rfl rfl rfl
        exact opened.same rfl rfl rfl
  | linkPacket linkId decoded => exact HubTurn.neat_onPacket outlasts event neat
  | linkClosed linkId => exact HubTurn.neat_closeSession linkId .remote turned
  | outboundConcluded linkId resourceHash => exact turned.same rfl rfl rfl
  | inboundConcluded linkId resourceHash => exact turned.same rfl rfl rfl
  | resourceCompleted linkId resourceHash data hasMetadata =>
      exact HubTurn.neat_onResourceCompleted linkId resourceHash data hasMetadata turned
  | resourceAdvertised linkId adv => exact turned.same rfl rfl rfl
  | resourceStarted linkId resourceHash => exact turned.same rfl rfl rfl
  | resourceTick => exact turned.same rfl rfl rfl
  | pingTick => exact HubTurn.neat_pingCycle turned
  | pruneTick =>
      exact HubTurn.neat_retryFailedPersists
        (HubTurn.neat_flushDirtyLastUsed (HubTurn.neat_pruneRegistry turned))
  | noteOversize count => exact turned.same rfl rfl rfl

omit [UnicodeTables] [HubCrypto] in
theorem neat_notePersistFailed {spared : String → Prop}
    {start core : HubCore} (neat : Neat spared start core)
    (op : HubRoomOp) : Neat spared start (core.notePersistFailed op) := by
  cases op with
  | upsert row => exact neat.adjust row.roomName fun _ => ⟨rfl, id⟩
  | touched roomName lastUsed => exact neat.adjust roomName fun _ => ⟨rfl, id⟩
  | removed roomName => exact neat.same rfl rfl rfl
  | replaceKlines subjects => exact neat.same rfl rfl rfl
  | gcInvites before => exact neat

theorem neat_serve {spared : String → Prop} {start core : HubCore}
    {input : ServiceInput} (neat : Neat spared start core) (inTime : core.RemovesInTime input) :
    Neat spared start (core.serve input) := by
  have stepped := neat_step neat inTime
  unfold HubCore.serve
  generalize core.step input.input = after at stepped
  induction core.written input generalizing after with
  | nil => exact stepped
  | cons outcome rest ih =>
      rw [List.foldl_cons]
      refine ih _ ?_
      split
      · exact stepped
      · exact neat_notePersistFailed stepped outcome.1

end Steps

/-! ## Runs -/

theorem registered_restoreRoom (pepperId : Bytes 8) (now : WallTime)
    (row : HubRoomRow) : (restoreRoom pepperId now row).registered = true := by
  rw [restoreRoom]
  obtain ⟨_, _, _, _, isRoom⟩ := restoreGrants_eq now _ row.grants
  rw [isRoom]

/-- A hub starts with the rooms that were registered, and without tokens. -/
theorem neat_new [UnicodeTables] (config : ChannelHubConfig)
    (hubHash : IdentityHash) (klines : FiniteSet IdentityHash)
    (admission : AdmissionState) (pepper : Bytes 32)
    (restored : List HubRoomRow) (ambient : Ambient) :
    Neat (fun _ => False)
      (HubCore.new config hubHash klines admission pepper restored ambient)
      (HubCore.new config hubHash klines admission pepper restored
        ambient) := by
  have started : (∀ roomName room,
      (HubCore.new config hubHash klines admission pepper restored
          ambient).rooms.lookup roomName = some room →
        room.registered = true) ∧
      (HubCore.new config hubHash klines admission pepper restored
        ambient).roomTokens = ∅ := by
    unfold HubCore.new
    refine @HubCore.restore_induct _
      (fun core => (∀ roomName room,
        core.rooms.lookup roomName = some room →
          room.registered = true) ∧ core.roomTokens = ∅) ambient.unix
      (fun core row started normed => ⟨fun roomName room held => ?_,
        started.2⟩) _ restored ⟨fun roomName room held => ?_, rfl⟩
    · simp only [FiniteMap.lookup_insert_ite] at held
      split at held
      · cases held
        exact registered_restoreRoom _ _ row
      · exact started.1 roomName room held
    · rw [AList.lookup_empty] at held
      cases held
  obtain ⟨registered, tokenless⟩ := started
  have none : ∀ roomName token,
      (HubCore.new config hubHash klines admission pepper restored
        ambient).roomTokens.lookup roomName = some token → False := by
    intro roomName token known
    rw [tokenless] at known
    cases known
  exact ⟨fun roomName room held _ => Or.inl (registered roomName room held),
    fun roomName token known => (none roomName token known).elim,
    fun roomName token known => (none roomName token known).elim,
    Nat.le_refl _, fun _ _ => Or.inl⟩

section Runs

variable [UnicodeTables] [HubCrypto]

/-- A room that went and was founded again never has the token of its
predecessor. -/
def HubCore.StartsAfresh (core : HubCore) (inputs : List ServiceInput) :
    Prop :=
  ∀ before between after, inputs = before ++ between ++ after →
    ∀ roomName old new,
      (runFrom HubCore.serve core before).roomTokens.lookup roomName = some old →
      (runFrom HubCore.serve core (before ++ between)).rooms.lookup roomName = none →
      (runFrom HubCore.serve core
          (before ++ between ++ after)).roomTokens.lookup roomName =
          some new →
        new ≠ old

/-- There are no ghost rooms in any state of a run in which no command
removes the last identity from an unregistered room, and no room goes on with
the token of another. -/
theorem noGhosts_run (config : ChannelHubConfig) (hubHash : IdentityHash)
    (klines : FiniteSet IdentityHash) (admission : AdmissionState)
    (pepper : Bytes 32) (restored : List HubRoomRow) (ambient : Ambient)
    (inputs : List ServiceInput) (inTime : Along HubCore.serve HubCore.RemovesInTime
      (HubCore.new config hubHash klines admission pepper restored ambient)
      inputs) :
    (runFrom HubCore.serve
      (HubCore.new config hubHash klines admission pepper restored ambient)
      inputs).NoGhosts ∧
    (HubCore.new config hubHash klines admission pepper restored
      ambient).StartsAfresh inputs := by
  have kept : ∀ (start core : HubCore) (rest : List ServiceInput),
      Neat (fun _ => False) start core →
      Along HubCore.serve HubCore.RemovesInTime core rest →
        Neat (fun _ => False) start (runFrom HubCore.serve core rest) :=
    fun start core rest neat along =>
      invariant_runFrom (Neat (fun _ => False) start)
        (fun _ _ => neat_serve) neat along
  have begun := neat_new config hubHash klines admission pepper restored ambient
  refine ⟨(kept _ _ inputs begun inTime).noGhosts, ?_⟩
  intro before between after isInputs roomName old new had gone has
  rw [isInputs, along_append, along_append] at inTime
  obtain ⟨⟨alongBefore, alongBetween⟩, alongAfter⟩ := inTime
  have first := kept _ _ before begun alongBefore
  have second := kept _ _ between first.restart alongBetween
  rw [← runFrom_append] at second
  have third := kept _ _ after second.restart alongAfter
  rw [← runFrom_append] at third
  have early : old < (runFrom HubCore.serve
      (HubCore.new config hubHash klines admission pepper restored ambient)
      (before ++ between)).tokensDrawn :=
    Nat.lt_of_lt_of_le (first.bounded roomName old had) second.drawn
  rcases third.fresh roomName new has with still | late
  · have there := second.tokened roomName new still
    rw [gone] at there
    cases there
  · omega

end Runs

section Samples

attribute [local instance] asciiTables sampleCrypto

/-- A text that a link sends into the hub. -/
def saying (link : LinkId) (id : UInt8) (sender : IdentityHash)
    (text : String) : ServiceInput :=
  served (.linkPacket link
    (some { wireEnvelope id .message sender none with
      body := some (.text text) }))

/-- Bob alone is left in a room that nobody registered. -/
def lastInRoom : List ServiceInput :=
  joining linkOne alice "r" ++ joining linkTwo bob "r" ++
    [served (.linkPacket linkOne (some (wireEnvelope 3 .part alice (some "r"))))]

/-- A kick of the last member draws a token for the room that has just
gone. -/
theorem kickedLast_leaves_token :
    ¬ ((runFrom HubCore.serve (sampleHub [])
        (lastInRoom ++ [saying linkOne 4 alice "/kick r 020202"])).NoGhosts ∧
      (sampleHub []).StartsAfresh
        (lastInRoom ++ [saying linkOne 4 alice "/kick r 020202"])) := by
  rintro ⟨noGhosts, -⟩
  have drawn : ((runFrom HubCore.serve (sampleHub [])
      (lastInRoom ++ [saying linkOne 4 alice
        "/kick r 020202"])).roomTokens.lookup "r").isSome = true := by
    decide +kernel
  have gone : ((runFrom HubCore.serve (sampleHub [])
      (lastInRoom ++ [saying linkOne 4 alice
        "/kick r 020202"])).rooms.lookup "r").isSome = false := by
    decide +kernel
  obtain ⟨token, known⟩ := Option.isSome_iff_exists.mp drawn
  have there := noGhosts.tokened "r" token known
  rw [gone] at there
  cases there

/-- A kick of a guest while the operator is in the room. -/
theorem noGhosts_kickedGuest :
    (runFrom HubCore.serve (sampleHub [])
      (joining linkOne alice "r" ++ joining linkTwo bob "r" ++
        [saying linkOne 4 alice "/kick r 020202"])).NoGhosts ∧
    (sampleHub []).StartsAfresh
      (joining linkOne alice "r" ++ joining linkTwo bob "r" ++
        [saying linkOne 4 alice "/kick r 020202"]) :=
  noGhosts_run _ _ _ _ _ _ _ _ (by decide +kernel)

end Samples

end Ratspeak
