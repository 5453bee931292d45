import Ratspeak.Hub.Index
import Ratspeak.Hub.Tokens

/-!
# Commands and tokens

Whatever records something about a room draws a token for it, so the room has
to be there at that moment.  A command that removes an identity from a room
records the removal afterwards, when the room may have gone with its last
member.
-/

namespace Ratspeak

open Library

/-- Something keeps the room when an identity leaves it. -/
def HubCore.outlasts (core : HubCore) (roomName : String) (target : IdentityHash) : Bool :=
  (core.rooms.lookup roomName).any fun room =>
    room.registered ||
      room.members.toList.any fun link =>
        core.sessionIdentity link != some target

namespace HubTurn

variable {spared : String → Prop} {start : HubCore} {turn : HubTurn}

theorem anchored_of_outlasts {core : HubCore} {roomName : String}
    {target : IdentityHash} (outlasts : core.outlasts roomName target = true) :
    Anchored core roomName (core.roomLinksForIdentity roomName target) := by
  obtain ⟨room, held, stays⟩ := (Option.any_eq_true _ _).mp outlasts
  refine ⟨room, held, ?_⟩
  simp only [Bool.or_eq_true, List.any_eq_true, bne_iff_ne] at stays
  rcases stays with registered | ⟨link, inside, other⟩
  · exact Or.inl registered
  · refine Or.inr ⟨link, (FiniteSet.mem_toList _ _).mp inside, ?_⟩
    rw [HubCore.roomLinksForIdentity, held]
    simp [other]

theorem outlasts_modifyRoom (turn : HubTurn) (roomName : String)
    {change : HubRoom → HubRoom} (same : ∀ room, (change room).members = room.members ∧
      (change room).registered = room.registered) (target : IdentityHash) :
    (turn.modifyRoom roomName change).core.outlasts roomName target =
      turn.core.outlasts roomName target := by
  have sessions : ∀ link,
      (turn.modifyRoom roomName change).core.sessionIdentity link =
        turn.core.sessionIdentity link := fun _ => rfl
  simp only [HubCore.outlasts, sessions]
  simp only [modifyRoom, mapCore_core, FiniteMap.lookup_adjust, if_true]
  cases turn.core.rooms.lookup roomName with
  | none => rfl
  | some room => simp [same room]

/-! ## Relaying -/

theorem neat_rememberNickname (linkId : LinkId) (envelope : Envelope)
    (neat : Neat spared start turn.core) :
    Neat spared start (turn.rememberNickname linkId envelope).core := by
  unfold rememberNickname
  split
  · exact neat
  · split
    · exact neat
    · exact neat.same rfl rfl rfl

theorem neat_relayInto (linkId : LinkId) (identity : IdentityHash)
    (roomName : String) (envelope : Envelope) (neat : Neat spared start turn.core) :
    Neat spared start
      (turn.relayInto linkId identity roomName envelope).core := by
  have remembered := neat_rememberNickname linkId envelope neat
  unfold relayInto
  dsimp only
  split
  · exact remembered
  · have counted : Neat spared start
        ((turn.rememberNickname linkId envelope).modifyStats
          (countForwarded envelope.messageType)).core :=
      remembered.same rfl rfl rfl
    split
    · exact counted
    · rename_i room held
      refine neat_mintRoomToken ?_ ?_
      · rw [fanOut, pushAll_core]
        exact Option.isSome_iff_exists.mpr ⟨room, held⟩
      · rw [fanOut, pushAll_core]
        exact counted

theorem neat_withRelayGate {linkId : LinkId} {identity : IdentityHash}
    {roomName : String} {refused next : HubTurn → HubTurn}
    (refusing : ∀ turn : HubTurn, Neat spared start turn.core →
      Neat spared start (refused turn).core)
    (following : Neat spared start turn.core → Neat spared start (next turn).core)
    (neat : Neat spared start turn.core) :
    Neat spared start
      (turn.withRelayGate linkId identity roomName refused next).core := by
  unfold withRelayGate
  split
  · exact refusing _ neat
  · exact following neat

theorem neat_onDirectNotice (linkId : LinkId) (identity : IdentityHash)
    (envelope : Envelope) (neat : Neat spared start turn.core) :
    Neat spared start
      (turn.onDirectNotice linkId identity envelope).core := by
  have remembered := neat_rememberNickname linkId envelope neat
  unfold onDirectNotice
  split
  · exact neat
  · split
    · exact neat
    · split
      · exact neat
      · dsimp only
        split
        · exact remembered
        · exact remembered.same rfl rfl rfl

section Relay

variable [UnicodeTables]

theorem neat_relayToRoom (linkId : LinkId) (identity : IdentityHash)
    (envelope : Envelope) (neat : Neat spared start turn.core) :
    Neat spared start (turn.relayToRoom linkId identity envelope).core := by
  unfold relayToRoom
  split
  · exact neat
  · exact neat_withRelayGate (fun _ => id)
      (neat_relayInto linkId identity _ envelope) neat

end Relay

/-! ## Shared beginnings -/

section Beginnings

variable [UnicodeTables]

theorem neat_withRoomName {linkId : LinkId} {roomArg : String}
    {scope : Option String} {next : String → HubTurn}
    (follow : ∀ roomName, turn.core.normRoom roomArg = .ok roomName →
      Neat spared start (next roomName).core)
    (neat : Neat spared start turn.core) :
    Neat spared start
      (turn.withRoomName linkId roomArg scope next).core := by
  unfold withRoomName
  split
  · exact neat
  · rename_i roomName normed
    exact follow roomName normed

end Beginnings

theorem neat_withVisibleRoom {linkId : LinkId} {identity : IdentityHash}
    {roomName : String} {next : HubRoom → HubTurn}
    (follow : ∀ room, turn.core.rooms.lookup roomName = some room →
      Neat spared start (next room).core)
    (neat : Neat spared start turn.core) :
    Neat spared start
      (turn.withVisibleRoom linkId identity roomName next).core := by
  unfold withVisibleRoom
  split
  · exact neat
  · rename_i room held
    split
    · exact follow room held
    · exact neat

theorem neat_withRoomOp {linkId : LinkId} {identity : IdentityHash}
    {roomName : String} {next : HubRoom → HubTurn}
    (follow : ∀ room, turn.core.rooms.lookup roomName = some room →
      turn.core.isRoomOp room identity = true → Neat spared start (next room).core)
    (neat : Neat spared start turn.core) :
    Neat spared start
      (turn.withRoomOp linkId identity roomName next).core := by
  refine neat_withVisibleRoom (fun room held => ?_) neat
  split
  · rename_i operator
    exact follow room held operator
  · exact neat

theorem neat_withTarget {linkId : LinkId}
    {resolved : Except String IdentityHash} {scope : Option String}
    {next : IdentityHash → HubTurn} (follow : ∀ target, resolved = .ok target →
      Neat spared start (next target).core)
    (neat : Neat spared start turn.core) :
    Neat spared start
      (turn.withTarget linkId resolved scope next).core := by
  unfold withTarget
  split
  · exact neat
  · rename_i target
    exact follow target rfl

theorem isSome_of_held {roomName : String} {room : HubRoom}
    (held : turn.core.rooms.lookup roomName = some room) :
    (turn.core.rooms.lookup roomName).isSome = true :=
  Option.isSome_iff_exists.mpr ⟨room, held⟩

/-! ## Commands -/

theorem neat_pushNoticeEntries (linkId : LinkId) (header : NoticeHeader)
    (entries : List String) (separator : String) (room : Option String)
    (neat : Neat spared start turn.core) :
    Neat spared start (turn.pushNoticeEntries linkId header entries separator room).core :=
  neat_of_announces
    (announces_pushNoticeEntries turn linkId header entries separator room)
    neat

theorem neat_cmdList (linkId : LinkId) (identity : IdentityHash)
    (neat : Neat spared start turn.core) :
    Neat spared start (turn.cmdList linkId identity).core := by
  unfold cmdList
  dsimp only
  split
  · exact neat
  · exact neat

theorem neat_recordKline (target : IdentityHash) (origin : Option LinkId)
    (neat : Neat spared start turn.core) :
    Neat spared start (turn.recordKline target origin).core := by
  have unleased : Neat spared start (turn.mapCore fun core =>
      { core with
        rooms := FiniteMap.mapValues
          (fun _ room =>
            { room with rejoinUntil := room.rejoinUntil.erase target })
          core.rooms }).core :=
    neat_mapRooms (fun _ _ => ⟨rfl, id⟩) neat
  exact unleased.same rfl rfl rfl

theorem members_setRole (flag : String) (target : IdentityHash) (room : HubRoom) :
    (setRole flag target room).members = room.members ∧
      (room.registered = true →
        (setRole flag target room).registered = true) := by
  unfold setRole
  split
  · exact ⟨rfl, id⟩
  · split
    · exact ⟨rfl, id⟩
    · split
      · exact ⟨rfl, id⟩
      · exact ⟨rfl, id⟩

theorem members_setModeFlag (flag : String) (room : HubRoom) :
    (setModeFlag flag room).members = room.members ∧
      (room.registered = true →
        (setModeFlag flag room).registered = true) := by
  unfold setModeFlag
  dsimp only
  split
  · exact ⟨rfl, id⟩
  · split
    · exact ⟨rfl, id⟩
    · split
      · exact ⟨rfl, id⟩
      · split
        · exact ⟨rfl, id⟩
        · exact ⟨rfl, id⟩

theorem neat_changeMode {roomName : String} (linkId : LinkId) {change : HubRoom → HubRoom}
    (there : (turn.core.rooms.lookup roomName).isSome = true)
    (same : ∀ room, (change room).members = room.members ∧
      (room.registered = true → (change room).registered = true))
    (neat : Neat spared start turn.core) :
    Neat spared start (turn.changeMode roomName linkId change).core :=
  neat_moderated linkId there (announces_broadcastMode _ roomName) same neat

theorem neat_inviteAdd (linkId : LinkId) {roomName : String}
    (room : HubRoom) (token : String) (target : IdentityHash) (rawRoom : Option String)
    (there : (turn.core.rooms.lookup roomName).isSome = true)
    (neat : Neat spared start turn.core) :
    Neat spared start
      (turn.inviteAdd linkId roomName room token target rawRoom).core := by
  unfold inviteAdd
  split
  · exact neat_moderated linkId there
      (announces_pushInviteNotice _ roomName _ target)
      (fun _ => ⟨rfl, id⟩) neat
  · have answers := announces_pushInviteNotice turn roomName
      room.key.isSome target
    refine neat_mintRoomToken ?_ (neat_of_announces answers neat)
    rw [answers.core_eq]
    exact there

theorem neat_cmdStats (linkId : LinkId) (identity : IdentityHash)
    (neat : Neat spared start turn.core) :
    Neat spared start (turn.cmdStats linkId identity).core := by
  unfold cmdStats
  split
  · exact neat
  · exact neat_pushNoticeEntries _ _ _ _ _ neat

theorem neat_cmdReload (linkId : LinkId) (identity : IdentityHash)
    (neat : Neat spared start turn.core) :
    Neat spared start (turn.cmdReload linkId identity).core := by
  unfold cmdReload
  split
  · exact neat
  · exact neat

section Commands

variable [UnicodeTables]

theorem neat_cmdWho (linkId : LinkId) (identity : IdentityHash)
    (args : List String) (rawRoom : Option String) (neat : Neat spared start turn.core) :
    Neat spared start (turn.cmdWho linkId identity args rawRoom).core := by
  unfold cmdWho
  split
  · exact neat
  · exact neat_withRoomName (fun roomName _ =>
      neat_pushNoticeEntries _ _ _ _ _ neat) neat

/-- A removal is recorded for a room that outlasts it. -/
theorem neat_cmdKick (linkId : LinkId) (identity : IdentityHash)
    (args : List String) (rawRoom : Option String) (outlasts : ∀ roomName target,
      turn.core.kickedByCommand identity args = some (roomName, target) →
        turn.core.outlasts roomName target = true)
    (neat : Neat spared start turn.core) :
    Neat spared start (turn.cmdKick linkId identity args rawRoom).core := by
  unfold cmdKick
  split
  · refine neat_withRoomName (fun roomName normed =>
      neat_withRoomOp (fun room held operator =>
        neat_withTarget (fun target resolved => ?_) neat) neat) neat
    dsimp only
    split
    · exact neat
    · have stays : turn.core.outlasts roomName target = true := by
        refine outlasts roomName target ?_
        simp [HubCore.kickedByCommand,
          HubCore.operatedRoom_eq normed held operator, resolved,
          Except.toOption]
      exact neat_mintRoomToken ((anchored_of_outlasts stays).eject _)
        (neat_ejectIdentityFromRoom roomName target _ neat)
  · exact neat

theorem neat_cmdKline (linkId : LinkId) (identity : IdentityHash)
    (args : List String) (neat : Neat spared start turn.core) :
    Neat spared start (turn.cmdKline linkId identity args).core := by
  unfold cmdKline
  dsimp only
  split
  · exact neat
  · split
    · exact neat
    · split
      · exact neat_pushNoticeEntries _ _ _ _ _ neat
      · split
        · exact neat
        · split
          · exact neat
          · refine neat_withTarget (fun target _ => ?_) neat
            split
            · exact neat_dismissIdentity target (neat_recordKline target (some linkId) neat)
            · split
              · exact neat.same rfl rfl rfl
              · exact neat

theorem neat_cmdRegister (linkId : LinkId) (identity : IdentityHash)
    (args : List String) (rawRoom : Option String) (neat : Neat spared start turn.core) :
    Neat spared start
      (turn.cmdRegister linkId identity args rawRoom).core := by
  unfold cmdRegister
  split
  · exact neat
  · refine neat_withRoomName (fun roomName _ => ?_) neat
    split
    · exact neat
    · split
      · exact neat
      · rename_i absent
        split
        · exact neat
        · split
          · exact neat
          · have there : (turn.core.rooms.lookup roomName).isSome = true := by
              simpa [Option.isSome_iff_ne_none] using absent
            exact neat_moderated linkId there (.refl _) (fun _ => ⟨rfl, fun _ => rfl⟩) neat

/-- Recorded before the room can disappear: the token dies with it. -/
theorem neat_cmdUnregister (linkId : LinkId) (identity : IdentityHash)
    (args : List String) (rawRoom : Option String) (neat : Neat spared start turn.core) :
    Neat spared start
      (turn.cmdUnregister linkId identity args rawRoom).core := by
  unfold cmdUnregister
  split
  · exact neat
  · refine neat_withRoomName (fun roomName _ => ?_) neat
    split
    · exact neat
    · split
      · exact neat
      · rename_i registered
        have there : (turn.core.rooms.lookup roomName).isSome = true := by
          cases held : turn.core.rooms.lookup roomName with
          | none => simp [held] at registered
          | some room => rfl
        refine neat_dropIfEmpty (neat_mintRoomToken ?_ (neat_spareRoom roomName neat))
        rw [modifyRoom_isSome]
        exact there

theorem neat_cmdTopic (linkId : LinkId) (identity : IdentityHash)
    (args : List String) (rawRoom : Option String) (neat : Neat spared start turn.core) :
    Neat spared start
      (turn.cmdTopic linkId identity args rawRoom).core := by
  unfold cmdTopic
  split
  · exact neat
  · refine neat_withRoomName (fun roomName _ =>
      neat_withVisibleRoom (fun room held => ?_) neat) neat
    split
    · exact neat
    · split
      · exact neat
      · exact neat_moderated linkId (isSome_of_held held)
          (announces_broadcastText _ roomName _) (fun _ => ⟨rfl, id⟩) neat

theorem neat_modeRole (linkId : LinkId) {roomName : String}
    (flag : String) (words : List String) (rawRoom : Option String)
    (there : (turn.core.rooms.lookup roomName).isSome = true)
    (neat : Neat spared start turn.core) :
    Neat spared start
      (turn.modeRole linkId roomName flag words rawRoom).core := by
  unfold modeRole
  split
  · exact neat
  · refine neat_withTarget (fun target _ => ?_) neat
    split
    · exact neat
    · exact neat_moderated linkId there
        (announces_broadcastText _ roomName _)
        (members_setRole flag target) neat

theorem neat_cmdGrant (linkId : LinkId) (identity : IdentityHash)
    (verb : String) (args : List String) (rawRoom : Option String)
    (neat : Neat spared start turn.core) :
    Neat spared start
      (turn.cmdGrant linkId identity verb args rawRoom).core := by
  unfold cmdGrant
  split
  · refine neat_withRoomName (fun roomName _ =>
      neat_withRoomOp (fun room held _ =>
        neat_withTarget (fun target _ => ?_) neat) neat) neat
    split
    · exact neat
    · exact neat_moderated linkId (isSome_of_held held) (.refl _)
        (members_setRole _ target) neat
  · exact neat

theorem neat_cmdBan (linkId : LinkId) (identity : IdentityHash)
    (args : List String) (rawRoom : Option String) (outlasts : ∀ roomName target,
      turn.core.bannedByCommand identity args = some (roomName, target) →
        turn.core.outlasts roomName target = true)
    (neat : Neat spared start turn.core) :
    Neat spared start (turn.cmdBan linkId identity args rawRoom).core := by
  unfold cmdBan
  dsimp only
  split
  · refine neat_withRoomName (fun roomName normed => ?_) neat
    split
    · exact neat
    · refine neat_withRoomOp (fun room held operator => ?_) neat
      split
      · split
        · exact neat
        · exact neat_pushNoticeEntries _ _ _ _ _ neat
      · split
        · exact neat
        · refine neat_withTarget (fun target resolved => ?_) neat
          split
          · rename_i add
            have stays : turn.core.outlasts roomName target = true := by
              refine outlasts roomName target ?_
              simp [HubCore.bannedByCommand, add,
                HubCore.operatedRoom_eq normed held operator, resolved,
                Except.toOption]
            have banned : Neat spared start
                (turn.modifyRoom roomName fun room =>
                  { room with bans := room.bans.insert target }).core :=
              neat_modifyRoom roomName (fun _ => ⟨rfl, id⟩) neat
            have staysBanned := (@outlasts_modifyRoom turn roomName
              (fun room => { room with bans := room.bans.insert target })
              (fun _ => ⟨rfl, rfl⟩) target).trans stays
            exact neat_persistModerated linkId
              ((anchored_of_outlasts staysBanned).eject _)
              (neat_ejectIdentityFromRoom roomName target _ banned)
          · exact neat_moderated linkId (isSome_of_held held) (.refl _)
              (fun _ => ⟨rfl, id⟩) neat
  · exact neat

theorem neat_cmdInvite (linkId : LinkId) (identity : IdentityHash)
    (args : List String) (rawRoom : Option String) (neat : Neat spared start turn.core) :
    Neat spared start
      (turn.cmdInvite linkId identity args rawRoom).core := by
  unfold cmdInvite
  dsimp only
  split
  · refine neat_withRoomName (fun roomName _ =>
      neat_withRoomOp (fun room held _ => ?_) neat) neat
    split
    · exact neat_pushNoticeEntries _ _ _ _ _ neat
    · split
      · exact neat
      · split
        · exact neat
        · split
          · exact neat
          · split
            · exact neat_inviteAdd linkId room _ _ rawRoom (isSome_of_held held) neat
            · exact neat_moderated linkId (isSome_of_held held) (.refl _)
                (fun _ => ⟨rfl, id⟩) neat
  · exact neat

end Commands

section Modes

variable [UnicodeTables] [HubCrypto]

omit [UnicodeTables] in
theorem neat_setRoomKey (linkId : LinkId) {roomName : String}
    (words : List String) (rawRoom : Option String)
    (there : (turn.core.rooms.lookup roomName).isSome = true)
    (neat : Neat spared start turn.core) :
    Neat spared start
      (turn.setRoomKey linkId roomName words rawRoom).core := by
  unfold setRoomKey
  split
  · exact neat
  · dsimp only
    split
    · exact neat
    · split
      · exact neat
      · split
        · exact neat
        · exact neat_changeMode linkId there (fun _ => ⟨rfl, id⟩) neat

theorem neat_cmdMode (linkId : LinkId) (identity : IdentityHash)
    (args : List String) (rawRoom : Option String) (neat : Neat spared start turn.core) :
    Neat spared start
      (turn.cmdMode linkId identity args rawRoom).core := by
  unfold cmdMode
  split
  · refine neat_withRoomName (fun roomName _ =>
      neat_withRoomOp (fun room held _ => ?_) neat) neat
    have there := isSome_of_held held
    split
    · exact neat_changeMode linkId there (members_setModeFlag _) neat
    · split
      · exact neat_setRoomKey linkId _ rawRoom there neat
      · split
        · exact neat_changeMode linkId there (fun _ => ⟨rfl, id⟩) neat
        · split
          · exact neat
          · split
            · exact neat_modeRole linkId _ _ rawRoom there neat
            · exact neat
  · exact neat

/-- No command leaves a token for a room that is gone, if a room outlasts the
removal that a command asks for. -/
theorem neat_handleSlashCommand {after : HubTurn} {linkId : LinkId}
    {identity : IdentityHash} {envelope : Envelope} (outlasts : ∀ roomName target,
      turn.core.expelledBySlash identity envelope =
          some (roomName, target) →
        turn.core.outlasts roomName target = true)
    (handled : turn.handleSlashCommand linkId identity envelope = some after)
    (neat : Neat spared start turn.core) : Neat spared start after.core := by
  unfold handleSlashCommand at handled
  cases words : slashWords envelope with
  | none =>
      simp only [words] at handled
      cases handled
  | some parsed =>
      obtain ⟨verb, args⟩ := parsed
      simp only [words] at handled
      by_cases list : verb = "list"
      · rw [if_pos list] at handled
        cases handled
        exact neat_cmdList linkId identity neat
      rw [if_neg list] at handled
      by_cases who : verb = "who" ∨ verb = "names"
      · rw [if_pos who] at handled
        cases handled
        exact neat_cmdWho linkId identity args _ neat
      rw [if_neg who] at handled
      by_cases kick : verb = "kick"
      · rw [if_pos kick] at handled
        cases handled
        subst kick
        refine neat_cmdKick linkId identity args _
          (fun roomName target named => outlasts roomName target ?_) neat
        rw [HubCore.expelledBySlash, words]
        exact named
      rw [if_neg kick] at handled
      by_cases kline : verb = "kline"
      · rw [if_pos kline] at handled
        cases handled
        exact neat_cmdKline linkId identity args neat
      rw [if_neg kline] at handled
      by_cases register : verb = "register"
      · rw [if_pos register] at handled
        cases handled
        exact neat_cmdRegister linkId identity args _ neat
      rw [if_neg register] at handled
      by_cases unregister : verb = "unregister"
      · rw [if_pos unregister] at handled
        cases handled
        exact neat_cmdUnregister linkId identity args _ neat
      rw [if_neg unregister] at handled
      by_cases topic : verb = "topic"
      · rw [if_pos topic] at handled
        cases handled
        exact neat_cmdTopic linkId identity args _ neat
      rw [if_neg topic] at handled
      by_cases mode : verb = "mode"
      · rw [if_pos mode] at handled
        cases handled
        exact neat_cmdMode linkId identity args _ neat
      rw [if_neg mode] at handled
      by_cases grant : verb ∈ ["op", "deop", "voice", "devoice"]
      · rw [if_pos grant] at handled
        cases handled
        exact neat_cmdGrant linkId identity verb args _ neat
      rw [if_neg grant] at handled
      by_cases ban : verb = "ban"
      · rw [if_pos ban] at handled
        cases handled
        subst ban
        refine neat_cmdBan linkId identity args _
          (fun roomName target named => outlasts roomName target ?_) neat
        rw [HubCore.expelledBySlash, words]
        exact named
      rw [if_neg ban] at handled
      by_cases invite : verb = "invite"
      · rw [if_pos invite] at handled
        cases handled
        exact neat_cmdInvite linkId identity args _ neat
      rw [if_neg invite] at handled
      by_cases stats : verb = "stats"
      · rw [if_pos stats] at handled
        cases handled
        exact neat_cmdStats linkId identity neat
      rw [if_neg stats] at handled
      by_cases reload : verb = "reload"
      · rw [if_pos reload] at handled
        cases handled
        exact neat_cmdReload linkId identity neat
      · rw [if_neg reload] at handled
        cases handled

end Modes

end HubTurn

end Ratspeak
