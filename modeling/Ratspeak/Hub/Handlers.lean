import Ratspeak.Hub.Moves

/-!
# The handlers as moves

Each handler is a sequence of moves.  What a handler asks of the limits says
which operations on the roll it may carry out; for three commands it depends
on the arguments, and there the room or the identity that an accepted command
is about is given by a function of its own.
-/

namespace Ratspeak

open Library

/-! ## What an accepted command is about -/

namespace HubCore

variable [UnicodeTables]

/-- The room of an argument, if the sender is an operator of it. -/
def operatedRoom (core : HubCore) (identity : IdentityHash)
    (roomArg : String) : Option String :=
  (core.normRoom roomArg).toOption.filter fun roomName =>
    (core.rooms.lookup roomName).any fun room =>
      core.isRoomOp room identity

theorem operatedRoom_eq {core : HubCore} {identity : IdentityHash}
    {roomArg roomName : String} {room : HubRoom} (normed : core.normRoom roomArg = .ok roomName)
    (held : core.rooms.lookup roomName = some room)
    (operator : core.isRoomOp room identity = true) :
    core.operatedRoom identity roomArg = some roomName := by
  simp [operatedRoom, normed, Except.toOption, Option.filter, held, operator]

/-- The identity that an accepted `/kick` removes from a room. -/
def kickedByCommand (core : HubCore) (identity : IdentityHash)
    (args : List String) : Option (String × IdentityHash) :=
  match args with
  | [roomArg, token] =>
      (core.operatedRoom identity roomArg).bind fun roomName =>
        (core.resolveTarget token).toOption.map fun target =>
          (roomName, target)
  | _ => none

/-- The identity that an accepted `/ban add` removes from a room. -/
def bannedByCommand (core : HubCore) (identity : IdentityHash)
    (args : List String) : Option (String × IdentityHash) :=
  match args with
  | roomArg :: word :: token :: _ =>
      if toLowercase word = "add" then
        (core.operatedRoom identity roomArg).bind fun roomName =>
          (core.resolveTargetOrHash token).toOption.map fun target =>
            (roomName, target)
      else none
  | _ => none

/-- The identity that an accepted `/kline add` bans from the hub. -/
def klinedByCommand (core : HubCore) (identity : IdentityHash)
    (args : List String) : Option IdentityHash :=
  match args with
  | word :: token :: _ =>
      if identity ∈ core.serverOps ∧ toLowercase word = "add" then
        (core.resolveTargetOrHash token).toOption
      else none
  | _ => none

/-- The room that an accepted `/register` registers. -/
def registeredByCommand (core : HubCore) (linkId : LinkId)
    (identity : IdentityHash) (args : List String) : Option String :=
  match args with
  | [] => none
  | roomArg :: _ =>
      (core.normRoom roomArg).toOption.filter fun roomName =>
        core.sessionInRoom linkId roomName &&
          (core.rooms.lookup roomName).isSome &&
          decide (identity ∈ core.serverOps) &&
          decide (core.registeredRoomCount < core.config.maxRegisteredRooms)

/-- The room that an accepted `/unregister` unregisters. -/
def unregisteredByCommand (core : HubCore) (identity : IdentityHash)
    (args : List String) : Option String :=
  match args with
  | [] => none
  | roomArg :: _ =>
      (core.normRoom roomArg).toOption.filter fun roomName =>
        decide (identity ∈ core.serverOps) &&
          (core.rooms.lookup roomName).any HubRoom.registered

/-- No write is outstanding for a room that others are in. -/
def cleanToUnregister (core : HubCore) (roomName : String) : Prop :=
  ∀ room, core.rooms.lookup roomName = some room →
    ¬ room.members.isEmpty → room.persistDirty = false

end HubCore

namespace HubTurn

variable {limits : Limits}

/-! ## Single moves -/

private theorem sameSeat_refl (session : HubSession) :
    SameSeat session session :=
  ⟨rfl, rfl, rfl⟩

theorem move_modifySession (turn : HubTurn) (linkId : LinkId)
    {change : HubSession → HubSession} (same : ∀ session, SameSeat session (change session))
    (unheard : ¬ limits.remembers → ∀ session, (change session).seenIds = session.seenIds) :
    Move limits turn (turn.modifySession linkId change) := by
  refine Move.tend (fun link => ?_) fun silent link => ?_
  · rw [FiniteMap.lookup_adjust]
    split
    · rename_i equal
      subst equal
      cases turn.core.sessions.lookup link with
      | none => exact .none
      | some session => exact .some (same session)
    · cases turn.core.sessions.lookup link with
      | none => exact .none
      | some session => exact .some (sameSeat_refl session)
  · rw [FiniteMap.lookup_adjust]
    split
    · rename_i equal
      rw [← equal, Option.map_map]
      exact congrArg (fun change => Option.map change _)
        (funext (unheard silent))
    · rfl

theorem move_modifyStats (turn : HubTurn) (change : HubStats → HubStats) :
    Move limits turn (turn.modifyStats change) :=
  Move.note fun _ => rfl

theorem move_modifyAdmission (meters : limits.meters) (turn : HubTurn)
    (change : AdmissionState → AdmissionState) :
    Move limits turn (turn.modifyAdmission change) :=
  Move.note fun unmetered => absurd meters unmetered

theorem mintRoomToken_eq (turn : HubTurn) (roomName : String) :
    ∃ roomTokens tokensDrawn,
      turn.mintRoomToken roomName =
        turn.mapCore fun core =>
          { core with
            roomTokens := roomTokens
            tokensDrawn := tokensDrawn } := by
  unfold mintRoomToken mapCore
  by_cases known : (turn.core.roomTokens.lookup roomName).isSome = true
  · exact ⟨turn.core.roomTokens, turn.core.tokensDrawn, by simp [known]⟩
  · exact ⟨_, _, by simp only [known]; rfl⟩

theorem move_mintRoomToken (turn : HubTurn) (roomName : String) :
    Move limits turn (turn.mintRoomToken roomName) := by
  obtain ⟨roomTokens, tokensDrawn, minted⟩ :=
    turn.mintRoomToken_eq roomName
  rw [minted]
  exact Move.note fun _ => rfl

theorem move_modifyRoom (turn : HubTurn) (roomName : String) {change : HubRoom → HubRoom}
    (same : ∀ room, turn.core.rooms.lookup roomName = some room →
      Retouched room (change room)) :
    Move limits turn (turn.modifyRoom roomName change) := by
  refine Move.retouch fun name => ?_
  rw [FiniteMap.lookup_adjust]
  split
  · rename_i equal
    subst equal
    cases held : turn.core.rooms.lookup name with
    | none => exact .none
    | some room => exact .some (same room held)
  · cases turn.core.rooms.lookup name with
    | none => exact .none
    | some room => exact .some ⟨rfl, fun _ => id⟩

theorem move_pushNotice (turn : HubTurn) (linkId : LinkId) (text : String)
    (room : Option String) :
    Move limits turn (turn.pushNotice linkId text room) :=
  .reply (turn.plain_hubNotice linkId text room)

theorem move_pushError (turn : HubTurn) (linkId : LinkId) (text : String)
    (room : Option String) :
    Move limits turn (turn.pushError linkId text room) :=
  .reply (turn.plain_hubError linkId text room)

theorem moves_pushNotice (turn : HubTurn) (linkId : LinkId) (text : String)
    (room : Option String) :
    Moves limits turn (turn.pushNotice linkId text room) :=
  .single (move_pushNotice turn linkId text room)

theorem moves_pushError (turn : HubTurn) (linkId : LinkId) (text : String)
    (room : Option String) :
    Moves limits turn (turn.pushError linkId text room) :=
  .single (move_pushError turn linkId text room)

theorem moves_pushNoticeEntries (turn : HubTurn) (linkId : LinkId)
    (header : NoticeHeader) (entries : List String) (separator : String)
    (room : Option String) :
    Moves limits turn (turn.pushNoticeEntries linkId header entries separator room) :=
  .of_announces <| turn.announces_pushNoticeEntries linkId header entries separator room

theorem dropIfEmpty_pending (turn : HubTurn) (roomName : String) :
    turn.dropIfEmpty roomName =
      (turn.dropIfEmpty roomName).mapCore fun core =>
        { core with pendingRemovals := turn.core.pendingRemovals } := by
  unfold dropIfEmpty
  split
  · rfl
  · split
    · rfl
    · rfl

/-! ## Policy -/

/-- A change of policy that is stored and recorded. -/
theorem moves_persistModerated {turn announced : HubTurn}
    {roomName : String} {change : HubRoom → HubRoom} (linkId : LinkId)
    (amends : ∀ room, turn.core.rooms.lookup roomName = some room →
      Amended turn.core.pepperId room (change room))
    (answers : Announces (turn.modifyRoom roomName change) announced) :
    Moves limits turn (announced.persistModerated roomName linkId) :=
  .tail (.single (.amend amends answers)) (move_mintRoomToken _ roomName)

theorem amended_setRole (pepperId : Bytes 8) (flag : String)
    (target : IdentityHash) (room : HubRoom) :
    Amended pepperId room (setRole flag target room) := by
  unfold setRole
  split
  · exact ⟨rfl, rfl, rfl, fun _ => id, fun held => ⟨held.topic, held.key⟩,
      fun _ held => ⟨held, rfl⟩⟩
  · split
    · exact ⟨rfl, rfl, rfl, fun _ => id, fun held => ⟨held.topic, held.key⟩,
        fun _ held => ⟨held, rfl⟩⟩
    · split
      · exact ⟨rfl, rfl, rfl, fun _ => id,
          fun held => ⟨held.topic, held.key⟩, fun _ held => ⟨held, rfl⟩⟩
      · exact ⟨rfl, rfl, rfl, fun _ => id,
          fun held => ⟨held.topic, held.key⟩, fun _ held => ⟨held, rfl⟩⟩

theorem amended_setTopic (pepperId : Bytes 8) (topic : String)
    (room : HubRoom) : Amended pepperId room (setTopic topic room) := by
  refine ⟨rfl, rfl, rfl, fun _ => id, fun held => ⟨?_, held.key⟩,
    fun _ held => ⟨held, rfl⟩⟩
  simp only [setTopic]
  split
  · simp
  · rename_i some
    intro empty
    cases empty
    exact some rfl

theorem amended_setModeFlag (pepperId : Bytes 8) (flag : String)
    (room : HubRoom) : Amended pepperId room (setModeFlag flag room) := by
  unfold setModeFlag
  dsimp only
  split
  · exact ⟨rfl, rfl, rfl, fun _ => id, fun held => ⟨held.topic, held.key⟩,
      fun _ held => ⟨held, rfl⟩⟩
  · split
    · exact ⟨rfl, rfl, rfl, fun _ => id, fun held => ⟨held.topic, held.key⟩,
        fun identity held => absurd held (HubRoom.not_leases rfl identity)⟩
    · split
      · exact ⟨rfl, rfl, rfl, fun _ => id,
          fun held => ⟨held.topic, held.key⟩, fun _ held => ⟨held, rfl⟩⟩
      · split
        · exact ⟨rfl, rfl, rfl, fun _ => id,
            fun held => ⟨held.topic, held.key⟩, fun _ held => ⟨held, rfl⟩⟩
        · exact ⟨rfl, rfl, rfl, fun _ => id,
            fun held => ⟨held.topic, held.key⟩, fun _ held => ⟨held, rfl⟩⟩

theorem moves_changeMode (turn : HubTurn) (roomName : String)
    (linkId : LinkId) {change : HubRoom → HubRoom}
    (amends : ∀ room, Amended turn.core.pepperId room (change room)) :
    Moves limits turn (turn.changeMode roomName linkId change) :=
  moves_persistModerated linkId (fun room _ => amends room)
    (announces_broadcastMode _ roomName)

/-! ## Shared beginnings -/

section Beginnings

variable [UnicodeTables]

theorem moves_withRoomName {turn : HubTurn} {linkId : LinkId}
    {roomArg : String} {scope : Option String} {next : String → HubTurn}
    (follow : ∀ roomName, turn.core.normRoom roomArg = .ok roomName →
      Moves limits turn (next roomName)) :
    Moves limits turn (turn.withRoomName linkId roomArg scope next) := by
  unfold withRoomName
  split
  · exact moves_pushNotice ..
  · rename_i roomName normed
    exact follow roomName normed

end Beginnings

theorem moves_withVisibleRoom {turn : HubTurn} {linkId : LinkId}
    {identity : IdentityHash} {roomName : String} {next : HubRoom → HubTurn}
    (follow : ∀ room, turn.core.rooms.lookup roomName = some room →
      Moves limits turn (next room)) :
    Moves limits turn
      (turn.withVisibleRoom linkId identity roomName next) := by
  unfold withVisibleRoom
  split
  · exact moves_pushError ..
  · rename_i room held
    split
    · exact follow room held
    · exact moves_pushError ..

theorem moves_withRoomOp {turn : HubTurn} {linkId : LinkId}
    {identity : IdentityHash} {roomName : String} {next : HubRoom → HubTurn}
    (follow : ∀ room, turn.core.rooms.lookup roomName = some room →
      turn.core.isRoomOp room identity = true → Moves limits turn (next room)) :
    Moves limits turn (turn.withRoomOp linkId identity roomName next) := by
  refine moves_withVisibleRoom fun room held => ?_
  split
  · rename_i operator
    exact follow room held operator
  · exact moves_pushError ..

theorem moves_withTarget {turn : HubTurn} {linkId : LinkId}
    {resolved : Except String IdentityHash} {scope : Option String}
    {next : IdentityHash → HubTurn} (follow : ∀ target, resolved = .ok target →
      Moves limits turn (next target)) :
    Moves limits turn (turn.withTarget linkId resolved scope next) := by
  unfold withTarget
  split
  · exact moves_pushNotice ..
  · rename_i target
    exact follow target rfl

/-! ## Commands -/

theorem moves_cmdList (turn : HubTurn) (linkId : LinkId) (identity : IdentityHash) :
    Moves limits turn (turn.cmdList linkId identity) := by
  unfold cmdList
  dsimp only
  split
  · exact moves_pushNotice ..
  · exact moves_pushNotice ..

theorem moves_inviteAdd (turn : HubTurn) (linkId : LinkId)
    (roomName : String) (room : HubRoom) (token : String)
    (target : IdentityHash) (rawRoom : Option String) :
    Moves limits turn
      (turn.inviteAdd linkId roomName room token target rawRoom) := by
  unfold inviteAdd
  split
  · refine Relation.ReflTransGen.tail ?_ (move_pushNotice _ _ _ _)
    refine moves_persistModerated linkId (fun room _ => ?_)
      (announces_pushInviteNotice _ roomName _ target)
    exact ⟨rfl, rfl, rfl, fun _ => id, fun held => ⟨held.topic, held.key⟩,
      fun _ held => ⟨held, rfl⟩⟩
  · exact ((Moves.of_announces
      (announces_pushInviteNotice turn roomName _ target)).tail
      (move_mintRoomToken _ roomName)).tail (move_pushNotice _ _ _ _)

section Commands

variable [UnicodeTables]

theorem moves_cmdWho (turn : HubTurn) (linkId : LinkId)
    (identity : IdentityHash) (args : List String) (rawRoom : Option String) :
    Moves limits turn (turn.cmdWho linkId identity args rawRoom) := by
  unfold cmdWho
  split
  · exact moves_pushNotice ..
  · exact moves_withRoomName fun roomName _ =>
      moves_pushNoticeEntries turn _ _ _ _ _

theorem moves_cmdKick (turn : HubTurn) (linkId : LinkId)
    (identity : IdentityHash) (args : List String) (rawRoom : Option String)
    (expels : ∀ roomName target,
      turn.core.kickedByCommand identity args = some (roomName, target) →
        limits.permits (.expel roomName target false)) :
    Moves limits turn (turn.cmdKick linkId identity args rawRoom) := by
  unfold cmdKick
  split
  · refine moves_withRoomName fun roomName normed =>
      moves_withRoomOp fun room held operator =>
        moves_withTarget fun target resolved => ?_
    dsimp only
    split
    · exact moves_pushNotice ..
    · have permitted : limits.permits (.expel roomName target false) := by
        refine expels roomName target ?_
        simp [HubCore.kickedByCommand,
          HubCore.operatedRoom_eq normed held operator, resolved,
          Except.toOption]
      exact ((Relation.ReflTransGen.single (Move.expel permitted)).tail
        (move_mintRoomToken _ roomName)).tail (move_pushNotice _ _ _ _)
  · exact moves_pushNotice ..

theorem moves_cmdKline (turn : HubTurn) (linkId : LinkId)
    (identity : IdentityHash) (args : List String) (closes : ∀ target,
      turn.core.klinedByCommand identity args = some target →
        ∀ link, turn.core.sessionIdentity link = some target → limits.permits (.close link)) :
    Moves limits turn (turn.cmdKline linkId identity args) := by
  unfold cmdKline
  dsimp only
  split
  · exact moves_pushError ..
  · rename_i operator
    split
    · exact moves_pushNotice ..
    · rename_i word rest
      split
      · exact moves_pushNoticeEntries turn _ _ _ _ _
      · split
        · exact moves_pushNotice ..
        · split
          · exact moves_pushNotice ..
          · rename_i token words
            refine moves_withTarget fun target resolved => ?_
            split
            · rename_i add
              refine .single (Move.kline (closes target ?_)
                (announces_push (plain_hubNotice _ _ _ _)))
              simp [HubCore.klinedByCommand, not_not.mp operator, add,
                resolved, Except.toOption]
            · split
              · exact (Relation.ReflTransGen.single Move.unkline).tail (move_pushNotice _ _ _ _)
              · exact moves_pushNotice ..

theorem moves_cmdRegister (turn : HubTurn) (linkId : LinkId)
    (identity : IdentityHash) (args : List String) (rawRoom : Option String)
    (settled : limits.careful → turn.Unwritten ∧ ∀ roomName,
      turn.core.registeredByCommand linkId identity args = some roomName →
        ¬ roomName ∈ turn.core.pendingRemovals) :
    Moves limits turn (turn.cmdRegister linkId identity args rawRoom) := by
  unfold cmdRegister
  split
  · exact moves_pushNotice ..
  · rename_i roomArg words
    refine moves_withRoomName fun roomName normed => ?_
    split
    · exact moves_pushNotice ..
    · rename_i inside
      split
      · exact .refl
      · rename_i absent
        split
        · exact moves_pushError ..
        · rename_i operator
          split
          · exact moves_pushNotice ..
          · rename_i capacity
            have there : (turn.core.rooms.lookup roomName).isSome = true := by
              simpa [Option.isSome_iff_ne_none] using absent
            have member : turn.core.sessionInRoom linkId roomName = true := by
              simpa using inside
            have accepted : turn.core.registeredByCommand linkId identity
                (roomArg :: words) = some roomName := by
              simp only [HubCore.registeredByCommand, normed]
              simp [Except.toOption, Option.filter, not_not.mp operator,
                there, member, Nat.lt_of_not_le capacity]
            refine .tail (.tail (.single
              (Move.register
                (fun room =>
                  { room with
                    registered := true
                    noOutsideMsgs := true
                    topicOpsOnly := true
                    ops := room.ops.insert identity
                    lastUsed := turn.ambient.unix })
                turn.core.pendingRemovals there
                (fun room _ => ⟨rfl, rfl, rfl,
                  fun held => ⟨held.topic, held.key⟩,
                  fun _ held => ⟨held, rfl⟩⟩)
                (fun _ _ => Iff.rfl)
                (fun careful => ⟨(settled careful).2 roomName accepted,
                  (settled careful).1⟩) (.refl _)))
              (move_mintRoomToken _ roomName)) (move_pushNotice _ _ _ _)

theorem moves_cmdUnregister (turn : HubTurn) (linkId : LinkId)
    (identity : IdentityHash) (args : List String) (rawRoom : Option String)
    (settled : limits.careful → turn.Unwritten ∧ ∀ roomName,
      turn.core.unregisteredByCommand identity args = some roomName →
        turn.core.cleanToUnregister roomName) :
    Moves limits turn (turn.cmdUnregister linkId identity args rawRoom) := by
  unfold cmdUnregister
  split
  · exact moves_pushNotice ..
  · rename_i roomArg words
    refine moves_withRoomName fun roomName normed => ?_
    split
    · exact moves_pushError ..
    · rename_i operator
      split
      · exact moves_pushNotice ..
      · rename_i registered
        have accepted : turn.core.unregisteredByCommand identity
            (roomArg :: words) = some roomName := by
          simp only [HubCore.unregisteredByCommand, normed]
          simp [Except.toOption, Option.filter, not_not.mp operator]
          simpa using registered
        obtain ⟨roomTokens, tokensDrawn, minted⟩ :=
          mintRoomToken_eq (turn.modifyRoom roomName fun room =>
            { room with registered := false, rejoinUntil := ∅ }) roomName
        rw [noteModerated, minted]
        exact .tail (.single
          (Move.unregister
            (fun room => { room with registered := false, rejoinUntil := ∅ })
            turn.core.pendingRemovals
            (fun room _ => ⟨rfl, rfl, rfl,
              fun held => ⟨held.topic, held.key⟩, HubRoom.not_leases rfl⟩)
            (fun _ _ => Iff.rfl)
            (fun careful => ⟨(settled careful).1,
              (settled careful).2 roomName accepted⟩) (.refl _)
            (dropIfEmpty_pending _ roomName)))
          (move_pushNotice _ _ _ _)


theorem moves_cmdTopic (turn : HubTurn) (linkId : LinkId)
    (identity : IdentityHash) (args : List String) (rawRoom : Option String) :
    Moves limits turn (turn.cmdTopic linkId identity args rawRoom) := by
  unfold cmdTopic
  split
  · exact moves_pushNotice ..
  · refine moves_withRoomName fun roomName _ =>
      moves_withVisibleRoom fun room _ => ?_
    split
    · exact moves_pushNotice ..
    · split
      · exact moves_pushError ..
      · exact moves_persistModerated linkId
          (fun room _ => amended_setTopic _ _ room)
          (announces_broadcastText _ roomName _)

theorem moves_cmdGrant (turn : HubTurn) (linkId : LinkId)
    (identity : IdentityHash) (verb : String) (args : List String) (rawRoom : Option String) :
    Moves limits turn (turn.cmdGrant linkId identity verb args rawRoom) := by
  unfold cmdGrant
  split
  · refine moves_withRoomName fun roomName _ =>
      moves_withRoomOp fun room _ _ => moves_withTarget fun target _ => ?_
    split
    · exact moves_pushNotice ..
    · exact (moves_persistModerated linkId
        (fun room _ => amended_setRole _ _ target room) (.refl _)).tail
        (move_pushNotice _ _ _ _)
  · exact moves_pushNotice ..

theorem moves_cmdBan (turn : HubTurn) (linkId : LinkId)
    (identity : IdentityHash) (args : List String) (rawRoom : Option String)
    (bans : ∀ roomName target,
      turn.core.bannedByCommand identity args = some (roomName, target) →
        limits.permits (.expel roomName target true)) :
    Moves limits turn (turn.cmdBan linkId identity args rawRoom) := by
  unfold cmdBan
  dsimp only
  split
  · refine moves_withRoomName fun roomName normed => ?_
    split
    · exact moves_pushNotice ..
    · refine moves_withRoomOp fun room held operator => ?_
      split
      · split
        · exact moves_pushNotice ..
        · exact moves_pushNoticeEntries turn _ _ _ _ _
      · split
        · exact moves_pushNotice ..
        · refine moves_withTarget fun target resolved => ?_
          split
          · rename_i add
            have permitted : limits.permits (.expel roomName target true) := by
              refine bans roomName target ?_
              simp [HubCore.bannedByCommand,
                HubCore.operatedRoom_eq normed held operator, resolved, add,
                Except.toOption]
            exact ((Relation.ReflTransGen.single (Move.ban permitted)).tail
              (move_mintRoomToken _ roomName)).tail (move_pushNotice _ _ _ _)
          · refine Relation.ReflTransGen.tail ?_ (move_pushNotice _ _ _ _)
            refine moves_persistModerated linkId (fun room _ => ?_) (.refl _)
            exact ⟨rfl, rfl, rfl,
              fun other banned => ((FiniteSet.mem_erase _ _ _).mp banned).2,
              fun held => ⟨held.topic, held.key⟩,
              fun _ held => ⟨held, rfl⟩⟩
  · exact moves_pushNotice ..

theorem moves_cmdInvite (turn : HubTurn) (linkId : LinkId)
    (identity : IdentityHash) (args : List String) (rawRoom : Option String) :
    Moves limits turn (turn.cmdInvite linkId identity args rawRoom) := by
  unfold cmdInvite
  dsimp only
  split
  · refine moves_withRoomName fun roomName _ =>
      moves_withRoomOp fun room _ _ => ?_
    split
    · exact moves_pushNoticeEntries turn _ _ _ _ _
    · split
      · exact moves_pushNotice ..
      · split
        · exact moves_pushNotice ..
        · split
          · exact moves_pushError ..
          · split
            · exact moves_inviteAdd turn linkId roomName room _ _ rawRoom
            · refine Relation.ReflTransGen.tail ?_ (move_pushNotice _ _ _ _)
              refine moves_persistModerated linkId (fun room _ => ?_)
                (.refl _)
              exact ⟨rfl, rfl, rfl, fun _ => id,
                fun held => ⟨held.topic, held.key⟩,
                fun _ held => ⟨(HubRoom.leases_of_erase rfl held).2, rfl⟩⟩
  · exact moves_pushNotice ..

theorem moves_modeRole (turn : HubTurn) (linkId : LinkId)
    (roomName flag : String) (words : List String) (rawRoom : Option String) :
    Moves limits turn
      (turn.modeRole linkId roomName flag words rawRoom) := by
  unfold modeRole
  split
  · exact moves_pushNotice ..
  · refine moves_withTarget fun target _ => ?_
    split
    · exact moves_pushNotice ..
    · exact moves_persistModerated linkId
        (fun room _ => amended_setRole _ flag target room)
        (announces_broadcastText _ roomName _)

end Commands

theorem moves_setRoomKey [HubCrypto] (turn : HubTurn) (linkId : LinkId)
    (roomName : String) (words : List String) (rawRoom : Option String) :
    Moves limits turn (turn.setRoomKey linkId roomName words rawRoom) := by
  unfold setRoomKey
  dsimp only
  split
  · exact moves_pushNotice ..
  · split
    · exact moves_pushNotice ..
    · split
      · exact moves_pushNotice ..
      · split
        · exact moves_pushNotice ..
        · exact moves_changeMode turn roomName linkId
            fun room => ⟨rfl, rfl, rfl, fun _ => id,
              fun held => ⟨held.topic, by simp [roomKeyDigest]⟩,
              fun _ held => ⟨held, rfl⟩⟩

theorem moves_cmdStats (turn : HubTurn) (linkId : LinkId) (identity : IdentityHash) :
    Moves limits turn (turn.cmdStats linkId identity) := by
  unfold cmdStats
  split
  · exact moves_pushError ..
  · exact moves_pushNoticeEntries turn _ _ _ _ _

theorem moves_cmdReload (turn : HubTurn) (linkId : LinkId) (identity : IdentityHash) :
    Moves limits turn (turn.cmdReload linkId identity) := by
  unfold cmdReload
  split
  · exact moves_pushError ..
  · exact moves_pushNotice ..

section Dispatch

variable [UnicodeTables] [HubCrypto]

theorem moves_cmdMode (turn : HubTurn) (linkId : LinkId)
    (identity : IdentityHash) (args : List String) (rawRoom : Option String) :
    Moves limits turn (turn.cmdMode linkId identity args rawRoom) := by
  unfold cmdMode
  split
  · refine moves_withRoomName fun roomName _ =>
      moves_withRoomOp fun room _ _ => ?_
    split
    · exact moves_changeMode turn roomName linkId fun room => amended_setModeFlag _ _ room
    · split
      · exact moves_setRoomKey turn linkId roomName _ rawRoom
      · split
        · exact moves_changeMode turn roomName linkId
            fun room => ⟨rfl, rfl, rfl, fun _ => id,
              fun held => ⟨held.topic, by simp⟩,
              fun _ held => ⟨held, rfl⟩⟩
        · split
          · exact moves_pushNotice ..
          · split
            · exact moves_modeRole turn linkId roomName _ _ rawRoom
            · exact moves_pushNotice ..
  · exact moves_pushNotice ..

end Dispatch

end HubTurn

namespace HubCore

variable [UnicodeTables]

/-- The room that a slash text removes an identity from, and who that is. -/
def expelledBySlash (core : HubCore) (identity : IdentityHash)
    (envelope : Envelope) : Option (String × IdentityHash) :=
  match HubTurn.slashWords envelope with
  | some ("kick", args) => core.kickedByCommand identity args
  | some ("ban", args) => core.bannedByCommand identity args
  | _ => none

/-- The identity that a slash text bans from the hub. -/
def klinedBySlash (core : HubCore) (identity : IdentityHash)
    (envelope : Envelope) : Option IdentityHash :=
  match HubTurn.slashWords envelope with
  | some ("kline", args) => core.klinedByCommand identity args
  | _ => none

/-- The room that a slash text registers. -/
def registeredBySlash (core : HubCore) (linkId : LinkId)
    (identity : IdentityHash) (envelope : Envelope) : Option String :=
  match HubTurn.slashWords envelope with
  | some ("register", args) => core.registeredByCommand linkId identity args
  | _ => none

/-- The room that a slash text unregisters. -/
def unregisteredBySlash (core : HubCore) (identity : IdentityHash)
    (envelope : Envelope) : Option String :=
  match HubTurn.slashWords envelope with
  | some ("unregister", args) => core.unregisteredByCommand identity args
  | _ => none

end HubCore

namespace HubTurn

variable {limits : Limits}

private theorem chosen_of_ite {α : Type} {test : Prop} [Decidable test]
    {chosen result : α} {rest : Option α}
    (equal : (if test then some chosen else rest) = some result) :
    (test ∧ chosen = result) ∨ rest = some result := by
  by_cases holds : test
  · rw [if_pos holds] at equal
    exact Or.inl ⟨holds, Option.some.inj equal⟩
  · rw [if_neg holds] at equal
    exact Or.inr equal

section Dispatch

variable [UnicodeTables] [HubCrypto]

/-- What a slash text may do. -/
structure SlashLimits (limits : Limits) (turn : HubTurn) (linkId : LinkId)
    (identity : IdentityHash) (envelope : Envelope) : Prop where
  expels : ∀ roomName target ban,
    turn.core.expelledBySlash identity envelope = some (roomName, target) →
      limits.permits (.expel roomName target ban)
  closes : ∀ target,
    turn.core.klinedBySlash identity envelope = some target →
      ∀ link, turn.core.sessionIdentity link = some target → limits.permits (.close link)
  registers : limits.careful → turn.Unwritten ∧ ∀ roomName,
    turn.core.registeredBySlash linkId identity envelope = some roomName →
      ¬ roomName ∈ turn.core.pendingRemovals
  unregisters : limits.careful → turn.Unwritten ∧ ∀ roomName,
    turn.core.unregisteredBySlash identity envelope = some roomName →
      turn.core.cleanToUnregister roomName

theorem moves_handleSlashCommand {turn after : HubTurn} {linkId : LinkId}
    {identity : IdentityHash} {envelope : Envelope}
    (may : SlashLimits limits turn linkId identity envelope)
    (handled : turn.handleSlashCommand linkId identity envelope = some after) :
    Moves limits turn after := by
  unfold handleSlashCommand at handled
  cases words : slashWords envelope with
  | none =>
      simp only [words] at handled
      cases handled
  | some parsed =>
      obtain ⟨verb, args⟩ := parsed
      simp only [words] at handled
      rcases chosen_of_ite handled with ⟨-, rfl⟩ | handled
      · exact moves_cmdList turn linkId identity
      rcases chosen_of_ite handled with ⟨-, rfl⟩ | handled
      · exact moves_cmdWho turn linkId identity args _
      rcases chosen_of_ite handled with ⟨rfl, rfl⟩ | handled
      · refine moves_cmdKick turn linkId identity args _
          fun roomName target named => may.expels roomName target false ?_
        rw [HubCore.expelledBySlash, words]
        exact named
      rcases chosen_of_ite handled with ⟨rfl, rfl⟩ | handled
      · refine moves_cmdKline turn linkId identity args
          fun target named => may.closes target ?_
        rw [HubCore.klinedBySlash, words]
        exact named
      rcases chosen_of_ite handled with ⟨rfl, rfl⟩ | handled
      · refine moves_cmdRegister turn linkId identity args _
          fun careful => ⟨(may.registers careful).1,
            fun roomName named => (may.registers careful).2 roomName ?_⟩
        rw [HubCore.registeredBySlash, words]
        exact named
      rcases chosen_of_ite handled with ⟨rfl, rfl⟩ | handled
      · refine moves_cmdUnregister turn linkId identity args _
          fun careful => ⟨(may.unregisters careful).1,
            fun roomName named => (may.unregisters careful).2 roomName ?_⟩
        rw [HubCore.unregisteredBySlash, words]
        exact named
      rcases chosen_of_ite handled with ⟨-, rfl⟩ | handled
      · exact moves_cmdTopic turn linkId identity args _
      rcases chosen_of_ite handled with ⟨-, rfl⟩ | handled
      · exact moves_cmdMode turn linkId identity args _
      rcases chosen_of_ite handled with ⟨-, rfl⟩ | handled
      · exact moves_cmdGrant turn linkId identity verb args _
      rcases chosen_of_ite handled with ⟨rfl, rfl⟩ | handled
      · refine moves_cmdBan turn linkId identity args _
          fun roomName target named => may.expels roomName target true ?_
        rw [HubCore.expelledBySlash, words]
        exact named
      rcases chosen_of_ite handled with ⟨-, rfl⟩ | handled
      · exact moves_cmdInvite turn linkId identity args _
      rcases chosen_of_ite handled with ⟨-, rfl⟩ | handled
      · exact moves_cmdStats turn linkId identity
      rcases chosen_of_ite handled with ⟨-, rfl⟩ | handled
      · exact moves_cmdReload turn linkId identity
      · cases handled

end Dispatch

end HubTurn

end Ratspeak
