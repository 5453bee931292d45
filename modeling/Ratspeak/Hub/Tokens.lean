import Ratspeak.Hub.Rosters

/-!
# Rooms and their tokens

A room is there because it is registered or because somebody is in it, and a
token belongs to a room that is there.  Tokens are drawn on demand and die
with their room, so a room of the same name that is founded later draws
another.  Every operation of a turn keeps this; where an operation stops
half-way, a room may be spared the first half of it.
-/

namespace Ratspeak

open Library

/-- Every room is registered or has a member, and every token is that of a
room. -/
structure HubCore.NoGhosts (core : HubCore) : Prop where
  occupied : ∀ roomName room, core.rooms.lookup roomName = some room →
    room.registered = true ∨ ∃ link, link ∈ room.members
  tokened : ∀ roomName token, core.roomTokens.lookup roomName = some token →
    (core.rooms.lookup roomName).isSome = true

/-- The rooms are in order, apart from spared ones, and so are the tokens:
each of them was there at the start or has been drawn since. -/
structure Neat (spared : String → Prop) (start core : HubCore) : Prop where
  occupied : ∀ roomName room, core.rooms.lookup roomName = some room →
    ¬ spared roomName → room.registered = true ∨ ∃ link, link ∈ room.members
  tokened : ∀ roomName token, core.roomTokens.lookup roomName = some token →
    (core.rooms.lookup roomName).isSome = true
  bounded : ∀ roomName token, core.roomTokens.lookup roomName = some token →
    token < core.tokensDrawn
  drawn : start.tokensDrawn ≤ core.tokensDrawn
  fresh : ∀ roomName token, core.roomTokens.lookup roomName = some token →
    start.roomTokens.lookup roomName = some token ∨ start.tokensDrawn ≤ token

namespace Neat

variable {spared : String → Prop} {start core after : HubCore}

/-- What touches neither tokens nor the existence of rooms has to account
for who is in the rooms. -/
theorem reroom {other : String → Prop} (neat : Neat spared start core)
    (tokens : after.roomTokens = core.roomTokens) (drawn : after.tokensDrawn = core.tokensDrawn)
    (stays : ∀ roomName, (core.rooms.lookup roomName).isSome = true →
      (after.rooms.lookup roomName).isSome = true)
    (occupied : ∀ roomName room, after.rooms.lookup roomName = some room →
      ¬ other roomName → room.registered = true ∨ ∃ link, link ∈ room.members) :
    Neat other start after := by
  refine ⟨occupied, fun roomName token known => ?_,
    fun roomName token known => ?_, ?_, fun roomName token known => ?_⟩
  · rw [tokens] at known
    exact stays roomName (neat.tokened roomName token known)
  · rw [tokens] at known
    rw [drawn]
    exact neat.bounded roomName token known
  · rw [drawn]
    exact neat.drawn
  · rw [tokens] at known
    exact neat.fresh roomName token known

theorem same (neat : Neat spared start core) (rooms : after.rooms = core.rooms)
    (tokens : after.roomTokens = core.roomTokens)
    (drawn : after.tokensDrawn = core.tokensDrawn) :
    Neat spared start after := by
  refine neat.reroom tokens drawn (fun roomName there => ?_)
    fun roomName room held => ?_
  · rw [rooms]
    exact there
  · rw [rooms] at held
    exact neat.occupied roomName room held

/-- Rooms that change keep their members, and stay registered. -/
theorem amend (neat : Neat spared start core) (tokens : after.roomTokens = core.roomTokens)
    (drawn : after.tokensDrawn = core.tokensDrawn) (change : String → HubRoom → HubRoom)
    (changed : ∀ roomName, after.rooms.lookup roomName =
      (core.rooms.lookup roomName).map (change roomName))
    (same : ∀ roomName room,
      (change roomName room).members = room.members ∧
        (room.registered = true → (change roomName room).registered = true)) :
    Neat spared start after := by
  refine neat.reroom tokens drawn (fun roomName there => ?_)
    fun roomName result held unspared => ?_
  · rw [changed, Option.isSome_map]
    exact there
  · rw [changed] at held
    obtain ⟨room, found, isResult⟩ := Option.map_eq_some_iff.mp held
    obtain ⟨members, registered⟩ := same roomName room
    rw [← isResult]
    rcases neat.occupied roomName room found unspared with there | inside
    · exact Or.inl (registered there)
    · rw [members]
      exact Or.inr inside

theorem adjust (neat : Neat spared start core) (roomName : String)
    {change : HubRoom → HubRoom} (same : ∀ room, (change room).members = room.members ∧
      (room.registered = true → (change room).registered = true)) :
    Neat spared start
      { core with rooms := core.rooms.adjust roomName change } := by
  refine neat.amend rfl rfl
    (fun name room => if name = roomName then change room else room)
    (fun name => ?_) fun name room => ?_
  · simp only [FiniteMap.lookup_adjust]
    by_cases named : name = roomName
    · subst named
      simp
    · simp [named]
  · split
    · exact same room
    · exact ⟨rfl, id⟩

/-- A room goes, and its token with it. -/
theorem eraseRoom {roomName : String} {other : String → Prop}
    (neat : Neat spared start core) (rooms : after.rooms = core.rooms.erase roomName)
    (tokens : after.roomTokens = core.roomTokens.erase roomName)
    (drawn : after.tokensDrawn = core.tokensDrawn)
    (unspared : ∀ name, name ≠ roomName → ¬ other name → ¬ spared name) :
    Neat other start after := by
  have known : ∀ name token, after.roomTokens.lookup name = some token →
      name ≠ roomName ∧ core.roomTokens.lookup name = some token := by
    intro name token listed
    rw [tokens, FiniteMap.lookup_erase_ite] at listed
    split at listed
    · cases listed
    · rename_i apart
      exact ⟨apart, listed⟩
  refine ⟨fun name room held outside => ?_, fun name token listed => ?_,
    fun name token listed => ?_, ?_, fun name token listed => ?_⟩
  · rw [rooms, FiniteMap.lookup_erase_ite] at held
    split at held
    · cases held
    · rename_i apart
      exact neat.occupied name room held (unspared name apart outside)
  · obtain ⟨apart, before⟩ := known name token listed
    rw [rooms, FiniteMap.lookup_erase_ite, if_neg apart]
    exact neat.tokened name token before
  · rw [drawn]
    exact neat.bounded name token (known name token listed).2
  · rw [drawn]
    exact neat.drawn
  · exact neat.fresh name token (known name token listed).2

theorem mono {other : String → Prop} (neat : Neat spared start core)
    (wider : ∀ roomName, spared roomName → other roomName) :
    Neat other start core :=
  neat.reroom rfl rfl (fun _ => id) fun roomName room held unspared =>
    neat.occupied roomName room held fun inside =>
      unspared (wider roomName inside)

/-- The tokens of a state that is in order are those it starts with. -/
theorem restart (neat : Neat spared start core) : Neat spared core core :=
  ⟨neat.occupied, neat.tokened, neat.bounded, Nat.le_refl _, fun _ _ => Or.inl⟩

theorem noGhosts (neat : Neat (fun _ => False) start core) :
    core.NoGhosts :=
  ⟨fun roomName room held => neat.occupied roomName room held id,
    neat.tokened⟩

end Neat

namespace HubTurn

variable {spared : String → Prop} {start : HubCore} {turn : HubTurn}

/-! ## Single operations -/

theorem neat_mintRoomToken {roomName : String}
    (there : (turn.core.rooms.lookup roomName).isSome = true)
    (neat : Neat spared start turn.core) :
    Neat spared start (turn.mintRoomToken roomName).core := by
  unfold mintRoomToken
  simp only [mapCore_core]
  split
  · exact neat
  · refine ⟨neat.occupied, fun name token known => ?_,
      fun name token known => ?_,
      Nat.le_trans neat.drawn (Nat.le_succ _), fun name token known => ?_⟩
    · rw [FiniteMap.lookup_insert_ite] at known
      split at known
      · rename_i same
        rw [same]
        exact there
      · exact neat.tokened name token known
    · rw [FiniteMap.lookup_insert_ite] at known
      split at known
      · cases known
        exact Nat.lt_succ_self _
      · exact Nat.lt_succ_of_lt (neat.bounded name token known)
    · rw [FiniteMap.lookup_insert_ite] at known
      split at known
      · cases known
        exact Or.inr neat.drawn
      · exact neat.fresh name token known

theorem neat_modifyRoom (roomName : String) {change : HubRoom → HubRoom}
    (same : ∀ room, (change room).members = room.members ∧
      (room.registered = true → (change room).registered = true))
    (neat : Neat spared start turn.core) :
    Neat spared start (turn.modifyRoom roomName change).core :=
  neat.adjust roomName same

theorem neat_mapRooms {change : String → HubRoom → HubRoom}
    (same : ∀ name room, (change name room).members = room.members ∧
      (room.registered = true → (change name room).registered = true))
    (neat : Neat spared start turn.core) :
    Neat spared start
      (turn.mapCore fun core =>
        { core with
          rooms := FiniteMap.mapValues change core.rooms }).core := by
  refine neat.amend rfl rfl change (fun name => ?_) same
  simp only [mapCore_core, FiniteMap.lookup_mapValues]

theorem neat_of_announces {after : HubTurn} (answers : Announces turn after)
    (neat : Neat spared start turn.core) : Neat spared start after.core := by
  rw [answers.core_eq]
  exact neat

theorem neat_persistRoom (roomName : String) (origin : Option LinkId)
    (neat : Neat spared start turn.core) :
    Neat spared start (turn.persistRoom roomName origin).core := by
  unfold persistRoom
  split
  · exact neat
  · split
    · exact neat
    · exact neat_modifyRoom roomName (fun _ => ⟨rfl, id⟩) neat

theorem modifyRoom_isSome (turn : HubTurn) (roomName name : String)
    (change : HubRoom → HubRoom) :
    ((turn.modifyRoom roomName change).core.rooms.lookup name).isSome =
      (turn.core.rooms.lookup name).isSome := by
  simp only [modifyRoom, mapCore_core, FiniteMap.lookup_adjust]
  split
  · rename_i named
    subst named
    simp
  · rfl

theorem persistRoom_isSome (turn : HubTurn) (roomName name : String) (origin : Option LinkId) :
    ((turn.persistRoom roomName origin).core.rooms.lookup name).isSome =
      (turn.core.rooms.lookup name).isSome := by
  unfold persistRoom
  split
  · rfl
  · split
    · rfl
    · exact modifyRoom_isSome turn roomName name _

theorem neat_persistModerated {roomName : String} (linkId : LinkId)
    (there : (turn.core.rooms.lookup roomName).isSome = true)
    (neat : Neat spared start turn.core) :
    Neat spared start (turn.persistModerated roomName linkId).core :=
  neat_mintRoomToken
    (by rw [persistRoom_isSome]; exact there)
    (neat_persistRoom roomName _ neat)

/-- A room that is amended and announced is stored and recorded. -/
theorem neat_moderated {roomName : String} {change : HubRoom → HubRoom}
    {announced : HubTurn} (linkId : LinkId)
    (there : (turn.core.rooms.lookup roomName).isSome = true)
    (answers : Announces (turn.modifyRoom roomName change) announced)
    (same : ∀ room, (change room).members = room.members ∧
      (room.registered = true → (change room).registered = true))
    (neat : Neat spared start turn.core) :
    Neat spared start (announced.persistModerated roomName linkId).core := by
  refine neat_persistModerated linkId ?_
    (neat_of_announces answers (neat_modifyRoom roomName same neat))
  rw [answers.core_eq, modifyRoom_isSome]
  exact there

/-! ## Half-way -/

/-- A room that is put in, or changed without regard to who is in it, is
spared for now. -/
theorem neat_insertRoom {roomName : String} {room : HubRoom}
    (neat : Neat spared start turn.core) :
    Neat (fun name => name = roomName ∨ spared name) start
      (turn.mapCore fun core =>
        { core with rooms := core.rooms.insert roomName room }).core := by
  refine neat.reroom rfl rfl (fun name there => ?_)
    fun name found held unspared => ?_
  · simp only [mapCore_core, FiniteMap.lookup_insert_ite]
    split
    · rfl
    · exact there
  · simp only [mapCore_core, FiniteMap.lookup_insert_ite] at held
    split at held
    · rename_i named
      exact absurd (Or.inl named) unspared
    · exact neat.occupied name found held fun inside =>
        unspared (Or.inr inside)

theorem neat_spareRoom (roomName : String) {change : HubRoom → HubRoom}
    (neat : Neat spared start turn.core) :
    Neat (fun name => name = roomName ∨ spared name) start
      (turn.modifyRoom roomName change).core := by
  refine neat.reroom rfl rfl (fun name there => ?_)
    fun name found held unspared => ?_
  · rw [modifyRoom_isSome]
    exact there
  · simp only [modifyRoom, mapCore_core, FiniteMap.lookup_adjust] at held
    rw [if_neg fun named => unspared (Or.inl named)] at held
    exact neat.occupied name found held fun inside =>
      unspared (Or.inr inside)

/-- The spared room is registered, or somebody is put into it. -/
theorem neat_settleRoom {roomName : String} {change : HubRoom → HubRoom}
    (fills : ∀ room, (change room).registered = true ∨ ∃ link, link ∈ (change room).members)
    (neat : Neat (fun name => name = roomName ∨ spared name) start
      turn.core) :
    Neat spared start (turn.modifyRoom roomName change).core := by
  refine neat.reroom rfl rfl (fun name there => ?_)
    fun name found held unspared => ?_
  · rw [modifyRoom_isSome]
    exact there
  · simp only [modifyRoom, mapCore_core, FiniteMap.lookup_adjust] at held
    split at held
    · obtain ⟨room, -, isFound⟩ := Option.map_eq_some_iff.mp held
      rw [← isFound]
      exact fills room
    · rename_i other
      refine neat.occupied name found held ?_
      rintro (named | inside)
      · exact other named
      · exact unspared inside

theorem neat_dropIfEmpty {roomName : String}
    (neat : Neat (fun name => name = roomName ∨ spared name) start
      turn.core) :
    Neat spared start (turn.dropIfEmpty roomName).core := by
  have others : ∀ name room, name ≠ roomName →
      turn.core.rooms.lookup name = some room → ¬ spared name →
        room.registered = true ∨ ∃ link, link ∈ room.members := by
    intro name room apart held unspared
    refine neat.occupied name room held ?_
    rintro (named | inside)
    · exact apart named
    · exact unspared inside
  unfold dropIfEmpty
  split
  · rename_i absent
    refine neat.reroom rfl rfl (fun _ => id)
      fun name room held unspared => ?_
    refine others name room (fun named => ?_) held unspared
    rw [named, absent] at held
    cases held
  · rename_i room held
    split
    · refine neat.eraseRoom rfl rfl rfl fun name apart unspared => ?_
      rintro (named | inside)
      · exact apart named
      · exact unspared inside
    · rename_i inhabited
      refine neat.reroom rfl rfl (fun _ => id)
        fun name found foundHeld unspared => ?_
      by_cases named : name = roomName
      · subst named
        have same : found = room :=
          Option.some.inj (foundHeld.symm.trans held)
        rw [same]
        refine Or.inr ?_
        by_contra nobody
        exact inhabited ((FiniteSet.isEmpty_iff _).mpr fun link inside =>
          nobody ⟨link, inside⟩)
      · exact others name found named foundHeld unspared

/-! ## Joining -/

theorem neat_seatMember {roomName : String} (linkId : LinkId) (identity : IdentityHash)
    (neat : Neat (fun name => name = roomName ∨ spared name) start
      turn.core) :
    Neat spared start (turn.seatMember roomName linkId identity).core := by
  have seated : Neat spared start
      (turn.modifyRoom roomName fun room =>
        { room with
          members := room.members.insert linkId
          invited := room.invited.erase identity
          rejoinUntil := room.rejoinUntil.erase identity }).core :=
    neat_settleRoom (fun room => Or.inr ⟨linkId,
      (FiniteSet.mem_insert _ _ _).mpr (Or.inl rfl)⟩) neat
  have touched : Neat spared start
      ((turn.modifyRoom roomName fun room =>
        { room with
          members := room.members.insert linkId
          invited := room.invited.erase identity
          rejoinUntil := room.rejoinUntil.erase identity }).touchRoom
        roomName).core := by
    refine neat_modifyRoom roomName (fun room => ?_) seated
    split
    · exact ⟨rfl, id⟩
    · exact ⟨rfl, id⟩
  unfold seatMember
  dsimp only
  split
  · exact (neat_persistRoom roomName _ touched).same rfl rfl rfl
  · exact touched.same rfl rfl rfl

theorem seatMember_isSome (turn : HubTurn) (roomName : String)
    (linkId : LinkId) (identity : IdentityHash) :
    ((turn.seatMember roomName linkId identity).core.rooms.lookup
      roomName).isSome = (turn.core.rooms.lookup roomName).isSome := by
  unfold seatMember
  dsimp only
  split
  · simp only [modifySession, mapCore_core, persistRoom_isSome, touchRoom, modifyRoom_isSome]
  · simp only [modifySession, mapCore_core, touchRoom, modifyRoom_isSome]

/-! ## Leaving -/

theorem neat_detachLink (roomName : String) (linkId : LinkId)
    (neat : Neat spared start turn.core) :
    Neat spared start (turn.detachLink roomName linkId).core := by
  unfold detachLink
  split
  · exact neat
  · rename_i room held
    simp only [mapCore_core]
    split
    · exact neat.eraseRoom rfl rfl rfl fun _ _ => id
    · rename_i stays
      refine neat.reroom rfl rfl (fun name there => ?_)
        fun name changed found unspared => ?_
      · rw [FiniteMap.lookup_insert_ite]
        split
        · rfl
        · exact there
      · rw [FiniteMap.lookup_insert_ite] at found
        split at found
        · cases found
          by_cases registered : room.registered = true
          · exact Or.inl registered
          · refine Or.inr ?_
            by_contra nobody
            have empty : (room.members.erase linkId).isEmpty = true :=
              (FiniteSet.isEmpty_iff _).mpr fun link inside =>
                nobody ⟨link, inside⟩
            simp [empty, registered] at stays
        · exact neat.occupied name changed found unspared

theorem neat_removeMemberWithParted (roomName : String) (linkId : LinkId)
    (identity : IdentityHash) (nickname : Option String) (neat : Neat spared start turn.core) :
    Neat spared start (turn.removeMemberWithParted roomName linkId identity
      nickname).core := by
  unfold removeMemberWithParted
  split
  · exact neat
  · rename_i room held
    have detached := neat_detachLink roomName linkId
      (neat_mintRoomToken (Option.isSome_iff_exists.mpr ⟨room, held⟩) neat)
    dsimp only
    split
    · exact detached
    · rw [pushAll_core]
      exact detached

theorem neat_leaveRoom (roomName : String) (linkId : LinkId)
    (identity : IdentityHash) (neat : Neat spared start turn.core) :
    Neat spared start (turn.leaveRoom roomName linkId identity).core := by
  have shut : Neat spared start (turn.modifySession linkId fun session =>
      { session with rooms := session.rooms.erase roomName }).core :=
    neat.same rfl rfl rfl
  exact neat_removeMemberWithParted roomName linkId identity _ shut

theorem neat_ejectLink (roomName : String) (target : IdentityHash)
    (reason : String) (linkId : LinkId) (neat : Neat spared start turn.core) :
    Neat spared start (ejectLink roomName target reason turn linkId).core := by
  have shut : Neat spared start (turn.modifySession linkId fun session =>
      { session with rooms := session.rooms.erase roomName }).core :=
    neat.same rfl rfl rfl
  exact neat_removeMemberWithParted roomName linkId target _ shut

/-- What each turn of a fold keeps, the fold keeps. -/
theorem neat_foldl {α : Type} {step : HubTurn → α → HubTurn} (items : List α)
    (keeps : ∀ (turn : HubTurn) item, Neat spared start turn.core →
      Neat spared start (step turn item).core)
    (neat : Neat spared start turn.core) :
    Neat spared start (items.foldl step turn).core := by
  induction items generalizing turn with
  | nil => exact neat
  | cons item rest ih => exact ih (keeps turn item neat)

theorem neat_ejectIdentityFromRoom (roomName : String)
    (target : IdentityHash) (reason : String) (neat : Neat spared start turn.core) :
    Neat spared start
      (turn.ejectIdentityFromRoom roomName target reason).core := by
  have revoked : Neat spared start (turn.revokeLease roomName target).core :=
    neat_modifyRoom roomName (fun _ => ⟨rfl, id⟩) neat
  exact neat_foldl _ (fun turn linkId => neat_ejectLink roomName target
    reason linkId) revoked

theorem neat_leaveOnClose (expires : Option WallTime) (linkId : LinkId)
    (identity : IdentityHash) (nickname : Option String) (roomName : String)
    (neat : Neat spared start turn.core) :
    Neat spared start
      (leaveOnClose expires linkId identity nickname turn roomName).core := by
  unfold leaveOnClose
  refine neat_removeMemberWithParted roomName linkId identity nickname ?_
  split
  · exact neat
  · dsimp only
    split
    · exact neat_modifyRoom roomName (fun _ => ⟨rfl, id⟩) neat
    · exact neat

theorem neat_closeSession (linkId : LinkId) (reason : HubSessionCloseReason)
    (neat : Neat spared start turn.core) :
    Neat spared start (turn.closeSession linkId reason).core := by
  have forgets : Neat spared start (turn.modifyAdmission fun admission =>
      admission.forgetLink linkId).core :=
    neat.same rfl rfl rfl
  unfold closeSession
  extract_lets forgetting grace expires
  split
  · exact forgets
  · rename_i session live
    have departs : ∀ identity, Neat spared start
        (session.rooms.toList.foldl
          (leaveOnClose expires linkId identity session.nickname)
          (forgetting.unindexLink identity linkId)).core := by
      intro identity
      refine neat_foldl _ (fun turn roomName => neat_leaveOnClose expires
        linkId identity session.nickname roomName) ?_
      unfold unindexLink
      simp only [mapCore_core]
      split
      · exact forgets.same rfl rfl rfl
      · exact forgets
    dsimp only
    split
    · exact forgets.same rfl rfl rfl
    · rename_i identity proved
      exact (departs identity).same rfl rfl rfl

theorem neat_dismissIdentity (target : IdentityHash) (neat : Neat spared start turn.core) :
    Neat spared start (turn.dismissIdentity target).core :=
  neat_foldl _ (fun turn linkId neat => @neat_closeSession spared start
    ((turn.pushError linkId "banned" none).push (.close linkId)) linkId
    .kicked neat) neat

/-! ## Who stays -/

/-- The room stays when these links leave it. -/
def Anchored (core : HubCore) (roomName : String) (leaving : List LinkId) :
    Prop :=
  ∃ room, core.rooms.lookup roomName = some room ∧
    (room.registered = true ∨ ∃ link, link ∈ room.members ∧ ¬ link ∈ leaving)

theorem Anchored.removeMember {roomName : String} {leaving : List LinkId}
    {linkId : LinkId} {identity : IdentityHash} {nickname : Option String}
    (goes : linkId ∈ leaving) (anchored : Anchored turn.core roomName leaving) :
    Anchored (turn.removeMemberWithParted roomName linkId identity
      nickname).core roomName leaving := by
  obtain ⟨room, held, stays⟩ := anchored
  have notEmpty : ((room.members.erase linkId).isEmpty &&
      !room.registered) = false := by
    rcases stays with registered | ⟨link, inside, remains⟩
    · simp [registered]
    · have kept : link ∈ room.members.erase linkId := by
        refine (FiniteSet.mem_erase _ _ _).mpr ⟨fun same => ?_, inside⟩
        rw [same] at remains
        exact remains goes
      have some : ¬ (room.members.erase linkId).isEmpty = true :=
        fun empty => (FiniteSet.isEmpty_iff _).mp empty link kept
      simp [some]
  refine ⟨{ room with members := room.members.erase linkId }, ?_, ?_⟩
  · rw [removeMemberWithParted_lookup, if_pos rfl, held, Option.bind_some,
      HubRoom.detach]
    simp [notEmpty]
  · rcases stays with registered | ⟨link, inside, remains⟩
    · exact Or.inl registered
    · refine Or.inr ⟨link, (FiniteSet.mem_erase _ _ _).mpr
        ⟨fun same => ?_, inside⟩, remains⟩
      rw [same] at remains
      exact remains goes

theorem Anchored.eject {roomName : String} {target : IdentityHash} (reason : String)
    (anchored : Anchored turn.core roomName (turn.core.roomLinksForIdentity roomName target)) :
    ((turn.ejectIdentityFromRoom roomName target
      reason).core.rooms.lookup roomName).isSome = true := by
  have each : ∀ (links leaving : List LinkId) (turn : HubTurn),
      (∀ link ∈ links, link ∈ leaving) →
      Anchored turn.core roomName leaving →
        Anchored (links.foldl (ejectLink roomName target reason) turn).core
          roomName leaving := by
    intro links leaving
    induction links with
    | nil => exact fun _ _ => id
    | cons link rest ih =>
        intro turn within anchored
        refine ih _ (fun other inside =>
          within other (List.mem_cons_of_mem _ inside)) ?_
        have shut : Anchored (turn.modifySession link fun session =>
            { session with
              rooms := session.rooms.erase roomName }).core roomName
            leaving := anchored
        exact shut.removeMember (within link List.mem_cons_self)
  have revoked : Anchored (turn.revokeLease roomName target).core roomName
      (turn.core.roomLinksForIdentity roomName target) := by
    obtain ⟨room, held, stays⟩ := anchored
    refine ⟨{ room with rejoinUntil := room.rejoinUntil.erase target }, ?_, stays⟩
    simp [revokeLease, modifyRoom, FiniteMap.lookup_adjust, held]
  obtain ⟨room, held, -⟩ := each _ _ _ (fun _ => id) revoked
  exact Option.isSome_iff_exists.mpr ⟨room, held⟩

end HubTurn

end Ratspeak
