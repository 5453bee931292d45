import Ratspeak.Hub.Bans

/-!
# Where rooms come from

A room that stands after a turn stood before it, unless the turn founded it.
What may have happened to it in between is a matter of what one wants to know:
its members come and go, leases and invites end, its clocks are touched.  A
relation that tolerates all this is followed through the procedures of the
hub once, and through every move.
-/

namespace Ratspeak

open Library

/-- Nothing changed that is policy of the room, and leases ended at most. -/
def HubRoom.Shifted (before after : HubRoom) : Prop :=
  after =
    { before with
      members := after.members
      invited := after.invited
      rejoinUntil := after.rejoinUntil
      lastUsed := after.lastUsed
      lastUsedDirty := after.lastUsedDirty
      persistDirty := after.persistDirty } ∧
  ∀ identity, after.Leases identity → before.Leases identity

/-- A relation between what a room was and what it is that tolerates what is
no policy. -/
structure Tolerant (related : String → HubRoom → HubRoom → Prop) : Prop where
  refl : ∀ roomName room, related roomName room room
  trans : ∀ {roomName first second third}, related roomName first second →
    related roomName second third → related roomName first third
  shifts : ∀ {roomName before after}, HubRoom.Shifted before after →
    related roomName before after

/-- The hub is the same one, and every room stands where a related one
stood. -/
structure HubCore.Descends (related : String → HubRoom → HubRoom → Prop)
    (before after : HubCore) : Prop where
  config : after.config = before.config
  hubHash : after.hubHash = before.hubHash
  pepperId : after.pepperId = before.pepperId
  rooms : ∀ roomName room, after.rooms.lookup roomName = some room →
    ∃ earlier, before.rooms.lookup roomName = some earlier ∧ related roomName earlier room

/-- The link is the last one of the identity in a registered room for invited
guests, from which the identity is not banned. -/
structure HubCore.LastIn (core : HubCore) (link : LinkId)
    (identity : IdentityHash) (roomName : String) (room : HubRoom) :
    Prop where
  identified : core.sessionIdentity link = some identity
  joined : core.roll.joined link roomName
  held : core.rooms.lookup roomName = some room
  registered : room.registered = true
  inviteOnly : room.inviteOnly = true
  clear : ¬ identity ∈ room.bans
  last : core.identityStillInRoom room identity link = false

/-- The relation tolerates the leases that a link may leave behind. -/
def HubCore.Grants (related : String → HubRoom → HubRoom → Prop)
    (core : HubCore) (link : LinkId) : Prop :=
  ∀ identity roomName room expires, core.LastIn link identity roomName room →
    related roomName room { room with rejoinUntil := room.rejoinUntil.insert identity expires }

section Relations

variable {related : String → HubRoom → HubRoom → Prop}

namespace HubCore

theorem descends_of_rooms (tolerant : Tolerant related)
    {before after : HubCore} (config : after.config = before.config)
    (hubHash : after.hubHash = before.hubHash)
    (pepperId : after.pepperId = before.pepperId) (rooms : after.rooms = before.rooms) :
    Descends related before after := by
  refine ⟨config, hubHash, pepperId, fun roomName room held => ?_⟩
  rw [rooms] at held
  exact ⟨room, held, tolerant.refl roomName room⟩

theorem Descends.refl (tolerant : Tolerant related) (core : HubCore) :
    Descends related core core :=
  descends_of_rooms tolerant rfl rfl rfl rfl

theorem Descends.trans (tolerant : Tolerant related)
    {first second third : HubCore} (one : Descends related first second)
    (two : Descends related second third) : Descends related first third := by
  refine ⟨two.config.trans one.config, two.hubHash.trans one.hubHash,
    two.pepperId.trans one.pepperId, fun roomName room held => ?_⟩
  obtain ⟨middle, middleHeld, later⟩ := two.rooms roomName room held
  obtain ⟨earlier, earlierHeld, sooner⟩ :=
    one.rooms roomName middle middleHeld
  exact ⟨earlier, earlierHeld, tolerant.trans sooner later⟩

end HubCore

namespace HubTurn

/-- One room is changed, into one that is related to it. -/
theorem descends_modifyRoom (tolerant : Tolerant related) (turn : HubTurn)
    (roomName : String) {change : HubRoom → HubRoom}
    (kept : ∀ room, turn.core.rooms.lookup roomName = some room →
      related roomName room (change room)) :
    HubCore.Descends related turn.core
      (turn.modifyRoom roomName change).core := by
  refine ⟨rfl, rfl, rfl, fun name room held => ?_⟩
  simp only [modifyRoom, mapCore_core, FiniteMap.lookup_adjust] at held
  split at held
  · rename_i same
    obtain ⟨earlier, earlierHeld, changed⟩ := Option.map_eq_some_iff.mp held
    subst same changed
    exact ⟨earlier, earlierHeld, kept earlier earlierHeld⟩
  · exact ⟨room, held, tolerant.refl name room⟩

theorem descends_mintRoomToken (tolerant : Tolerant related)
    (turn : HubTurn) (roomName : String) :
    HubCore.Descends related turn.core
      (turn.mintRoomToken roomName).core := by
  obtain ⟨roomTokens, tokensDrawn, minted⟩ := turn.mintRoomToken_eq roomName
  rw [minted]
  exact HubCore.descends_of_rooms tolerant rfl rfl rfl rfl

theorem descends_eraseRoom (tolerant : Tolerant related) (core : HubCore)
    (roomName : String) (roomTokens : FiniteMap String Nat) :
    HubCore.Descends related core
      { core with
        rooms := core.rooms.erase roomName
        roomTokens := roomTokens } := by
  refine ⟨rfl, rfl, rfl, fun name room held => ?_⟩
  rw [FiniteMap.lookup_erase_ite] at held
  split at held
  · cases held
  · exact ⟨room, held, tolerant.refl name room⟩

theorem descends_detachLink (tolerant : Tolerant related) (turn : HubTurn)
    (roomName : String) (linkId : LinkId) :
    HubCore.Descends related turn.core
      (turn.detachLink roomName linkId).core := by
  rw [detachLink]
  split
  · exact .refl tolerant _
  · rename_i room found
    dsimp only [mapCore]
    split
    · exact descends_eraseRoom tolerant turn.core roomName _
    · refine ⟨rfl, rfl, rfl, fun name other held => ?_⟩
      rw [FiniteMap.lookup_insert_ite] at held
      split at held
      · rename_i same
        subst same
        cases held
        exact ⟨room, found, tolerant.shifts ⟨rfl, fun _ => id⟩⟩
      · exact ⟨other, held, tolerant.refl name other⟩

theorem descends_removeMemberWithParted (tolerant : Tolerant related)
    (turn : HubTurn) (roomName : String) (linkId : LinkId)
    (identity : IdentityHash) (nickname : Option String) :
    HubCore.Descends related turn.core
      (turn.removeMemberWithParted roomName linkId identity
        nickname).core := by
  rw [removeMemberWithParted]
  split
  · exact .refl tolerant _
  · have detached := (descends_mintRoomToken tolerant turn roomName).trans
      tolerant (descends_detachLink tolerant _ roomName linkId)
    dsimp only
    split
    · exact detached
    · rw [pushAll_core]
      exact detached

theorem descends_modifySession (tolerant : Tolerant related)
    (turn : HubTurn) (linkId : LinkId) (change : HubSession → HubSession) :
    HubCore.Descends related turn.core (turn.modifySession linkId change).core :=
  HubCore.descends_of_rooms tolerant rfl rfl rfl rfl

theorem descends_foldl (tolerant : Tolerant related) {α : Type}
    {step : HubTurn → α → HubTurn} (one : ∀ (turn : HubTurn) (item : α),
      HubCore.Descends related turn.core (step turn item).core)
    (items : List α) (turn : HubTurn) :
    HubCore.Descends related turn.core (items.foldl step turn).core := by
  induction items generalizing turn with
  | nil => exact .refl tolerant _
  | cons item rest ih => exact (one turn item).trans tolerant (ih (step turn item))

theorem descends_revokeLease (tolerant : Tolerant related) (turn : HubTurn)
    (roomName : String) (target : IdentityHash) :
    HubCore.Descends related turn.core (turn.revokeLease roomName target).core :=
  descends_modifyRoom tolerant turn roomName fun _ _ =>
    tolerant.shifts ⟨rfl, fun _ held => (HubRoom.leases_of_erase rfl held).2⟩

/-- Turning links out, after the lease was revoked. -/
theorem descends_ejectLinks (tolerant : Tolerant related)
    (roomName : String) (target : IdentityHash) (reason : String)
    (links : List LinkId) (turn : HubTurn) :
    HubCore.Descends related turn.core
      (links.foldl (ejectLink roomName target reason) turn).core := by
  refine descends_foldl tolerant (fun turn linkId => ?_) links turn
  exact (descends_modifySession tolerant turn linkId _).trans tolerant
    (descends_removeMemberWithParted tolerant _ roomName linkId target _)

theorem descends_ejectIdentityFromRoom (tolerant : Tolerant related)
    (turn : HubTurn) (roomName : String) (target : IdentityHash) (reason : String) :
    HubCore.Descends related turn.core
      (turn.ejectIdentityFromRoom roomName target reason).core :=
  (descends_revokeLease tolerant turn roomName target).trans tolerant
    (descends_ejectLinks tolerant roomName target reason _ _)

theorem descends_persistRoom (tolerant : Tolerant related) (turn : HubTurn)
    (roomName : String) (origin : Option LinkId) :
    HubCore.Descends related turn.core
      (turn.persistRoom roomName origin).core := by
  rw [persistRoom]
  split
  · exact .refl tolerant _
  · split
    · exact .refl tolerant _
    · exact descends_modifyRoom tolerant turn roomName fun _ _ =>
        tolerant.shifts ⟨rfl, fun _ => id⟩

theorem descends_dropIfEmpty (tolerant : Tolerant related) (turn : HubTurn)
    (roomName : String) :
    HubCore.Descends related turn.core (turn.dropIfEmpty roomName).core := by
  rw [dropIfEmpty]
  split
  · exact .refl tolerant _
  · split
    · exact descends_eraseRoom tolerant turn.core roomName _
    · exact .refl tolerant _

theorem descends_recordKline (tolerant : Tolerant related) (turn : HubTurn)
    (target : IdentityHash) (origin : Option LinkId) :
    HubCore.Descends related turn.core
      (turn.recordKline target origin).core := by
  refine ⟨rfl, rfl, rfl, fun roomName room held => ?_⟩
  have changed : (FiniteMap.mapValues
      (fun _ (room : HubRoom) =>
        { room with rejoinUntil := room.rejoinUntil.erase target })
      turn.core.rooms).lookup roomName = some room :=
    held
  rw [FiniteMap.lookup_mapValues] at changed
  obtain ⟨earlier, earlierHeld, same⟩ := Option.map_eq_some_iff.mp changed
  subst same
  exact ⟨earlier, earlierHeld, tolerant.shifts
    ⟨rfl, fun _ held => (HubRoom.leases_of_erase rfl held).2⟩⟩

/-! ## Entering -/

/-- What follows the entry into the books of a room. -/
theorem descends_seatMember (tolerant : Tolerant related) (turn : HubTurn)
    (roomName : String) (linkId : LinkId) (identity : IdentityHash) :
    HubCore.Descends related
      (turn.modifyRoom roomName fun room =>
        { room with
          members := room.members.insert linkId
          invited := room.invited.erase identity
          rejoinUntil := room.rejoinUntil.erase identity }).core
      (turn.seatMember roomName linkId identity).core := by
  unfold seatMember
  extract_lets consumedInvite seated persisted
  have touches (entered : HubTurn) : HubCore.Descends related entered.core
      (entered.touchRoom roomName).core := by
    refine descends_modifyRoom tolerant entered roomName fun room _ => ?_
    split
    · exact tolerant.shifts ⟨rfl, fun _ => id⟩
    · exact tolerant.refl roomName room
  have stores : HubCore.Descends related seated.core persisted.core := by
    simp only [persisted]
    split
    · exact descends_persistRoom tolerant seated roomName (some linkId)
    · exact .refl tolerant _
  exact ((touches _).trans tolerant stores).trans tolerant
    (descends_modifySession tolerant persisted linkId _)

theorem descends_enterRoom (tolerant : Tolerant related) (turn : HubTurn)
    (roomName : String) (linkId : LinkId) (identity : IdentityHash) :
    HubCore.Descends related turn.core
      (turn.enterRoom roomName linkId identity).core := by
  rw [enterRoom_core]
  refine HubCore.Descends.trans tolerant ?_
    (descends_seatMember tolerant turn roomName linkId identity)
  exact descends_modifyRoom tolerant turn roomName fun _ _ =>
    tolerant.shifts ⟨rfl, fun _ held => (HubRoom.leases_of_erase rfl held).2⟩

/-! ## Ending a session -/

/-- Leaving one room as the session ends, with a lease that is tolerated. -/
theorem descends_leaveOnClose (tolerant : Tolerant related)
    {expires : Option WallTime} {linkId : LinkId} {identity : IdentityHash}
    {nickname : Option String} {turn : HubTurn} {roomName : String}
    (grants : expires.isSome = true → ∀ room ends,
      turn.core.rooms.lookup roomName = some room →
        room.registered = true → room.inviteOnly = true →
          ¬ identity ∈ room.bans →
            turn.core.identityStillInRoom room identity linkId = false →
              related roomName room
                { room with
                  rejoinUntil := room.rejoinUntil.insert identity ends }) :
    HubCore.Descends related turn.core
      (leaveOnClose expires linkId identity nickname turn roomName).core := by
  unfold leaveOnClose
  extract_lets eligible leased
  have leases : HubCore.Descends related turn.core leased.core := by
    simp only [leased]
    split
    · exact .refl tolerant _
    · rename_i ends
      split
      · rename_i chosen
        obtain ⟨room, held, fit⟩ := (Option.any_eq_true _ _).mp chosen
        simp only [Bool.and_eq_true, Bool.not_eq_true',
          decide_eq_false_iff_not] at fit
        refine descends_modifyRoom tolerant turn roomName fun found foundHeld => ?_
        rw [held] at foundHeld
        cases foundHeld
        exact grants rfl room ends held fit.1.1.1 fit.1.1.2 fit.1.2 fit.2
      · exact .refl tolerant _
  exact leases.trans tolerant (descends_removeMemberWithParted tolerant leased _ _ _ _)

theorem leaveOnClose_lookup (expires : Option WallTime) (linkId : LinkId)
    (identity : IdentityHash) (nickname : Option String) (turn : HubTurn)
    {roomName name : String} (other : name ≠ roomName) :
    (leaveOnClose expires linkId identity nickname turn
      roomName).core.rooms.lookup name = turn.core.rooms.lookup name := by
  unfold leaveOnClose
  extract_lets eligible leased
  rw [removeMemberWithParted_lookup, if_neg other]
  simp only [leased]
  split
  · rfl
  · split
    · simp only [modifyRoom, mapCore_core, FiniteMap.lookup_adjust, if_neg other]
    · rfl

/-- Leaving the rooms of a session one after the other. -/
theorem descends_leaveRooms (tolerant : Tolerant related)
    {expires : Option WallTime} {linkId : LinkId} {identity : IdentityHash}
    {nickname : Option String} {rooms : List String} (nodup : rooms.Nodup)
    {turn : HubTurn} (grants : expires.isSome = true → ∀ roomName ∈ rooms, ∀ room ends,
      turn.core.rooms.lookup roomName = some room →
        room.registered = true → room.inviteOnly = true →
          ¬ identity ∈ room.bans →
            turn.core.identityStillInRoom room identity linkId = false →
              related roomName room
                { room with
                  rejoinUntil := room.rejoinUntil.insert identity ends }) :
    HubCore.Descends related turn.core
      (rooms.foldl (leaveOnClose expires linkId identity nickname)
        turn).core := by
  induction rooms generalizing turn with
  | nil => exact .refl tolerant _
  | cons roomName rest ih =>
      obtain ⟨fresh, restNodup⟩ := List.nodup_cons.mp nodup
      refine (descends_leaveOnClose tolerant fun keeps =>
        grants keeps roomName List.mem_cons_self).trans tolerant
          (ih restNodup fun keeps name later room ends held => ?_)
      have different : name ≠ roomName := fun same => fresh (same ▸ later)
      have same := leaveOnClose_sessions expires linkId identity nickname turn roomName
      rw [leaveOnClose_lookup _ _ _ _ _ different] at held
      have present : ∀ found : HubRoom,
          (leaveOnClose expires linkId identity nickname turn
            roomName).core.identityStillInRoom found identity linkId =
              turn.core.identityStillInRoom found identity linkId := by
        intro found
        simp only [HubCore.identityStillInRoom, HubCore.sessionIdentity, same]
      rw [present]
      exact grants keeps name (List.mem_cons_of_mem roomName later) room ends held

theorem descends_closeSession (tolerant : Tolerant related)
    {turn : HubTurn} {linkId : LinkId} {reason : HubSessionCloseReason}
    (grants : reason.keepsLease = true → HubCore.Grants related turn.core linkId) :
    HubCore.Descends related turn.core
      (turn.closeSession linkId reason).core := by
  unfold closeSession
  extract_lets forgetting grace expires
  have forgets : HubCore.Descends related turn.core forgetting.core :=
    HubCore.descends_of_rooms tolerant rfl rfl rfl rfl
  have erases (departed : HubTurn) :
      HubCore.Descends related departed.core
        { departed.core with
          sessions := departed.core.sessions.erase linkId } :=
    HubCore.descends_of_rooms tolerant rfl rfl rfl rfl
  apply forgets.trans tolerant
  split
  · exact .refl tolerant _
  · rename_i session live
    split
    · exact erases forgetting
    · rename_i identity proved
      obtain ⟨byIdentity, unindexed, -⟩ :=
        forgetting.unindexLink_eq identity linkId
      have unindexes : HubCore.Descends related forgetting.core
          (forgetting.unindexLink identity linkId).core := by
        rw [unindexed]
        exact HubCore.descends_of_rooms tolerant rfl rfl rfl rfl
      refine (unindexes.trans tolerant (descends_leaveRooms tolerant
        session.rooms.nodup fun keeps roomName joined room ends held
          registered inviteOnly clear last => ?_)).trans tolerant (erases _)
      have keepsLease : reason.keepsLease = true := by
        by_contra gone
        simp only [expires, gone, false_and, if_false] at keeps
        cases keeps
      rw [unindexed] at held last
      refine grants keepsLease identity roomName room ends
        ⟨?_, ⟨session, live, joined⟩, held, registered, inviteOnly, clear, last⟩
      rw [HubCore.sessionIdentity, show turn.core.sessions.lookup linkId =
        some session from live]
      exact proved

theorem descends_dismissIdentity (tolerant : Tolerant related)
    (turn : HubTurn) (target : IdentityHash) :
    HubCore.Descends related turn.core
      (turn.dismissIdentity target).core := by
  refine descends_foldl tolerant (fun before linkId => ?_) _ turn
  have tells : HubCore.Descends related before.core
      ((before.pushError linkId "banned" none).push (.close linkId)).core :=
    .refl tolerant _
  exact tells.trans tolerant (descends_closeSession tolerant fun keeps => by
    cases keeps)

end HubTurn

/-! ## Links and writes -/

namespace HubTurn

theorem descends_openSession (tolerant : Tolerant related) (turn : HubTurn) (linkId : LinkId) :
    HubCore.Descends related turn.core (turn.openSession linkId).core := by
  rw [openSession]
  split
  · exact .refl tolerant _
  · exact HubCore.descends_of_rooms tolerant rfl rfl rfl rfl

theorem descends_onLinkIdentified (tolerant : Tolerant related)
    (turn : HubTurn) (linkId : LinkId) (identity : IdentityHash) :
    HubCore.Descends related turn.core
      (turn.onLinkIdentified linkId identity).core := by
  rw [onLinkIdentified]
  split
  · exact HubCore.descends_of_rooms tolerant rfl rfl rfl rfl
  · exact (descends_openSession tolerant turn linkId).trans tolerant
      (HubCore.descends_of_rooms tolerant rfl rfl rfl rfl)

end HubTurn

theorem descends_notePersistFailed (tolerant : Tolerant related)
    (core : HubCore) (op : HubRoomOp) :
    HubCore.Descends related core (core.notePersistFailed op) := by
  have marked (roomName : String) {change : HubRoom → HubRoom}
      (shifts : ∀ room : HubRoom, room.Shifted (change room)) :
      HubCore.Descends related core { core with rooms := core.rooms.adjust roomName change } :=
    HubTurn.descends_modifyRoom tolerant
      ⟨⟨0, 0, 0, Bytes.replicate 16 0⟩, core, []⟩ roomName
      fun room _ => tolerant.shifts (shifts room)
  cases op with
  | upsert row => exact marked row.roomName fun room => ⟨rfl, fun _ => id⟩
  | touched roomName lastUsed => exact marked roomName fun room => ⟨rfl, fun _ => id⟩
  | removed roomName => exact HubCore.descends_of_rooms tolerant rfl rfl rfl rfl
  | replaceKlines subjects => exact HubCore.descends_of_rooms tolerant rfl rfl rfl rfl
  | gcInvites before => exact .refl tolerant core

/-- Learning which writes failed. -/
theorem descends_serve [UnicodeTables] [HubCrypto]
    (tolerant : Tolerant related) (core : HubCore) (input : ServiceInput) :
    HubCore.Descends related (core.step input.input) (core.serve input) := by
  rw [HubCore.serve]
  generalize core.step input.input = after
  induction core.written input generalizing after with
  | nil => exact .refl tolerant after
  | cons outcome rest ih =>
      rw [List.foldl_cons]
      refine HubCore.Descends.trans tolerant ?_ (ih _)
      split
      · exact .refl tolerant after
      · exact descends_notePersistFailed tolerant after outcome.1

/-! ## Moves -/

/-- The relation tolerates what moderators do to a room. -/
structure Moderated (related : String → HubRoom → HubRoom → Prop)
    (pepperId : Bytes 8) : Prop where
  amends : ∀ {roomName before after}, Amended pepperId before after →
    related roomName before after
  registers : ∀ {roomName before after}, Registered pepperId before after →
    related roomName before after
  unregisters : ∀ {roomName before after},
    Unregistered pepperId before after → related roomName before after
  bans : ∀ {roomName room target},
    related roomName room { room with bans := room.bans.insert target }

/-- The turn founded a room, and no more. -/
def Founds (limits : Limits) (before after : HubCore) : Prop :=
  ∃ roomName room, limits.names roomName ∧
    room.Storable before.pepperId ∧ room.rejoinUntil = ∅ ∧
      before.rooms.lookup roomName = none ∧
        after = { before with rooms := before.rooms.insert roomName room }

theorem retouched_shifted {before after : HubRoom}
    (retouched : Retouched before after) : before.Shifted after := by
  obtain ⟨same, leases⟩ := retouched
  refine ⟨?_, leases⟩
  rw [same]

/-- A move founds a room, or every room stands where a related one stood. -/
theorem Move.descends {limits : Limits} (tolerant : Tolerant related)
    {before after : HubTurn} (move : Move limits before after)
    (moderated : Moderated related before.core.pepperId)
    (grants : ∀ link, limits.loses link → HubCore.Grants related before.core link) :
    HubCore.Descends related before.core after.core ∨
      Founds limits before.core after.core := by
  have same {first second : HubTurn} (config : second.core.config =
      first.core.config) (hubHash : second.core.hubHash = first.core.hubHash)
      (pepperId : second.core.pepperId = first.core.pepperId)
      (rooms : second.core.rooms = first.core.rooms) :
      HubCore.Descends related first.core second.core :=
    HubCore.descends_of_rooms tolerant config hubHash pepperId rooms
  cases move with
  | reply plain => exact Or.inl (.refl tolerant _)
  | relay found scope content clear =>
      rw [HubTurn.reseats_fanOut_core]
      exact Or.inl (.refl tolerant _)
  | tend seats => exact Or.inl (same rfl rfl rfl rfl)
  | note => exact Or.inl (same rfl rfl rfl rfl)
  | retouch shifts =>
      refine Or.inl ⟨rfl, rfl, rfl, fun roomName room held => ?_⟩
      have retouched := shifts roomName
      dsimp only at held
      rw [held] at retouched
      cases earlierHeld : before.core.rooms.lookup roomName with
      | none =>
          rw [earlierHeld] at retouched
          cases retouched
      | some earlier =>
          rw [earlierHeld] at retouched
          cases retouched with
          | some retouched =>
              exact ⟨earlier, rfl, tolerant.shifts (retouched_shifted retouched)⟩
  | welcome permitted =>
      exact Or.inl (HubTurn.descends_modifySession tolerant before _ _)
  | found named absent empty noBans ephemeral clean storable leaseless =>
      exact Or.inr ⟨_, _, named, storable, leaseless, absent, rfl⟩
  | enter permitted live identified welcomed held clear =>
      exact Or.inl (HubTurn.descends_enterRoom tolerant before _ _ _)
  | leave permitted identified =>
      exact Or.inl
        ((HubTurn.descends_modifySession tolerant before _ _).trans tolerant
          (HubTurn.descends_removeMemberWithParted tolerant _ _ _ _ _))
  | expel permitted =>
      exact Or.inl (HubTurn.descends_ejectIdentityFromRoom tolerant before _ _ _)
  | ban permitted =>
      refine Or.inl ((HubCore.Descends.trans tolerant ?_
        (HubTurn.descends_ejectIdentityFromRoom tolerant _ _ _ _)).trans
        tolerant (HubTurn.descends_persistRoom tolerant _ _ _))
      exact HubTurn.descends_modifyRoom tolerant before _ fun _ _ => moderated.bans
  | close permitted sudden =>
      exact Or.inl (HubTurn.descends_closeSession tolerant fun keeps => grants _ (sudden keeps))
  | kline permitted answers =>
      rename_i announced target origin
      refine Or.inl (HubCore.Descends.trans tolerant ?_
        (HubTurn.descends_dismissIdentity tolerant announced target))
      rw [answers.core_eq]
      exact HubTurn.descends_recordKline tolerant before target origin
  | unkline => exact Or.inl (same rfl rfl rfl rfl)
  | restateKlines => exact Or.inl (same rfl rfl rfl rfl)
  | amend amends answers =>
      refine Or.inl (HubCore.Descends.trans tolerant ?_
        (HubTurn.descends_persistRoom tolerant _ _ _))
      rw [answers.core_eq]
      exact HubTurn.descends_modifyRoom tolerant before _
        fun room held => moderated.amends (amends room held)
  | register change pending present registers others settled answers =>
      refine Or.inl (HubCore.Descends.trans tolerant ?_
        (HubTurn.descends_persistRoom tolerant _ _ _))
      rw [answers.core_eq]
      exact (HubTurn.descends_modifyRoom tolerant before _ fun room held =>
        moderated.registers (registers room held)).trans tolerant
          (HubCore.descends_of_rooms tolerant rfl rfl rfl rfl)
  | unregister change pending unregisters others settled answers drops =>
      subst drops
      rename_i announced roomName origin scope roomTokens tokensDrawn
      refine Or.inl ((HubCore.Descends.trans tolerant ?_
        (HubTurn.descends_dropIfEmpty tolerant announced roomName)).trans
        tolerant (HubCore.descends_of_rooms tolerant rfl rfl rfl rfl))
      rw [answers.core_eq]
      exact (HubTurn.descends_modifyRoom tolerant before _ fun room held =>
        moderated.unregisters (unregisters room held)).trans tolerant
          (HubCore.descends_of_rooms tolerant rfl rfl rfl rfl)
  | restate => exact Or.inl (HubTurn.descends_persistRoom tolerant before _ _)
  | retire empty => exact Or.inl (HubTurn.descends_eraseRoom tolerant before.core _ _)
  | drain =>
      rw [HubTurn.drainRemovals, HubTurn.pushAll_core]
      exact Or.inl (HubCore.descends_of_rooms tolerant rfl rfl rfl rfl)
  | lesserWrite lesser => exact Or.inl (.refl tolerant _)

end Relations

end Ratspeak
