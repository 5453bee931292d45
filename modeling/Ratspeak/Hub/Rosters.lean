import Ratspeak.Hub.Events

/-!
# What the hub says about rosters

JOINED and PARTED tell a member who is in its room.  Here is what a listener
reads from the sends of a turn, and what each of the operations that move a
link between rooms does to the rooms, to the sessions and to the listeners.
-/

namespace Ratspeak

open Library

/-! ## Notes -/

/-- What an envelope says of the roster of its room. -/
def rosterNotes (envelope : Envelope) : List (RosterNote IdentityHash) :=
  match envelope.messageType with
  | .joined => (memberIdentities envelope).map .joined
  | .parted => (memberIdentities envelope).map .parted
  | _ => []

/-- What a listener reads about a room from one send. -/
def Sent.notes (listener : LinkId) (roomName : String) (sent : Sent) :
    List (RosterNote IdentityHash) :=
  match sent.send with
  | .envelope target content =>
      if target = listener ∧ content.room = some roomName then
        rosterNotes content
      else []
  | _ => []

/-- What every listener reads about every room from the sends of a turn. -/
def HubTurn.heard (turn : HubTurn) : Roll.Log LinkId IdentityHash String :=
  fun listener roomName => turn.out.flatMap (Sent.notes listener roomName)

theorem rosterNotes_of_not_roster {envelope : Envelope}
    (content : envelope.isRoster = false) : rosterNotes envelope = [] := by
  unfold rosterNotes
  split
  · rename_i kind
    simp [Envelope.isRoster, kind] at content
  · rename_i kind
    simp [Envelope.isRoster, kind] at content
  · rfl

theorem notes_of_not_roster {envelope : Envelope}
    (content : envelope.isRoster = false) (target listener : LinkId)
    (roomName : String) (core : HubCore) :
    Sent.notes listener roomName ⟨.envelope target envelope, core⟩ = [] := by
  unfold Sent.notes
  dsimp only
  rw [rosterNotes_of_not_roster content]
  exact ite_self []

theorem notes_of_plain {hubHash : IdentityHash} {send : HubSend}
    (plain : HubSend.Plain hubHash send) (listener : LinkId)
    (roomName : String) (core : HubCore) :
    Sent.notes listener roomName ⟨send, core⟩ = [] := by
  cases send with
  | envelope target content =>
      exact notes_of_not_roster plain.1 target listener roomName core
  | resource target content payload => rfl
  | close target => rfl
  | persist persist => rfl

namespace HubTurn

theorem heard_push (turn : HubTurn) (send : HubSend) (listener : LinkId) (roomName : String) :
    (turn.push send).heard listener roomName =
      turn.heard listener roomName ++
        Sent.notes listener roomName ⟨send, turn.core⟩ := by
  simp [heard]

theorem heard_push_plain {turn : HubTurn} {send : HubSend}
    {hubHash : IdentityHash} (plain : HubSend.Plain hubHash send) :
    (turn.push send).heard = turn.heard := by
  funext listener roomName
  rw [heard_push, notes_of_plain plain, List.append_nil]

theorem heard_pushAll (turn : HubTurn) (sends : List HubSend)
    (listener : LinkId) (roomName : String) :
    (turn.pushAll sends).heard listener roomName =
      turn.heard listener roomName ++
        sends.flatMap fun send =>
          Sent.notes listener roomName ⟨send, turn.core⟩ := by
  simp [heard, List.flatMap_map]

theorem heard_of_announces {before after : HubTurn}
    (answers : Announces before after) : after.heard = before.heard := by
  obtain ⟨sends, plain, rfl⟩ := answers
  funext listener roomName
  rw [heard_pushAll, List.flatMap_eq_nil_iff.mpr, List.append_nil]
  intro send member
  exact notes_of_plain (plain send member) listener roomName before.core

private theorem flatMap_one {α β : Type} [DecidableEq α] (chosen : α)
    (value : List β) {items : List α} (nodup : items.Nodup) :
    (items.flatMap fun item => if item = chosen then value else []) =
      if chosen ∈ items then value else [] := by
  induction items with
  | nil => simp
  | cons head rest ih =>
      obtain ⟨fresh, restNodup⟩ := List.nodup_cons.mp nodup
      rw [List.flatMap_cons, ih restNodup]
      by_cases same : head = chosen
      · subst same
        simp [fresh]
      · have other : ¬ chosen = head := fun equal => same equal.symm
        simp [same, other]

/-- One envelope goes to every link of a list. -/
theorem heard_broadcast (turn : HubTurn) {members : List LinkId}
    (nodup : members.Nodup) (content : Envelope) (listener : LinkId) (roomName : String) :
    (turn.pushAll (members.map fun member =>
        .envelope member content)).heard listener roomName =
      turn.heard listener roomName ++
        if listener ∈ members ∧ content.room = some roomName then
          rosterNotes content
        else [] := by
  rw [heard_pushAll, List.flatMap_map]
  congr 1
  by_cases scope : content.room = some roomName
  · simp only [Sent.notes, scope, and_true]
    rw [flatMap_one listener (rosterNotes content) nodup]
    by_cases inside : listener ∈ members
    · rw [if_pos inside, if_pos inside]
    · rw [if_neg inside, if_neg inside]
  · simp [Sent.notes, scope]

/-! ## Who is through which link -/

end HubTurn

namespace HubCore

theorem identityInRoom_iff (core : HubCore) (room : HubRoom) (identity : IdentityHash) :
    core.identityInRoom room identity = true ↔
      ∃ member, member ∈ room.members ∧
        core.sessionIdentity member = some identity := by
  simp [identityInRoom, List.any_eq_true]

theorem identityStillInRoom_iff (core : HubCore) (room : HubRoom)
    (identity : IdentityHash) (excluding : LinkId) :
    core.identityStillInRoom room identity excluding = true ↔
      ∃ member, member ∈ room.members ∧ member ≠ excluding ∧
        core.sessionIdentity member = some identity := by
  simp [identityStillInRoom, List.any_eq_true]

theorem mem_rosterIdentities (core : HubCore) (room : HubRoom) (identity : IdentityHash) :
    identity ∈ core.rosterIdentities room ↔
      ∃ member, member ∈ room.members ∧
        core.sessionIdentity member = some identity := by
  simp [rosterIdentities, List.mem_dedup, List.mem_filterMap]

/-- The cores agree on everything but rooms and tokens. -/
def Housed (before after : HubCore) : Prop :=
  ∃ (rooms : FiniteMap String HubRoom) (roomTokens : FiniteMap String Nat)
      (tokensDrawn : Nat),
    after =
      { before with
        rooms := rooms
        roomTokens := roomTokens
        tokensDrawn := tokensDrawn }

theorem Housed.refl (core : HubCore) : Housed core core :=
  ⟨core.rooms, core.roomTokens, core.tokensDrawn, rfl⟩

theorem Housed.trans {first second third : HubCore}
    (one : Housed first second) (two : Housed second third) :
    Housed first third := by
  obtain ⟨_, _, _, rfl⟩ := one
  obtain ⟨rooms, roomTokens, tokensDrawn, rfl⟩ := two
  exact ⟨rooms, roomTokens, tokensDrawn, rfl⟩

theorem Housed.sessions {before after : HubCore}
    (housed : Housed before after) : after.sessions = before.sessions := by
  obtain ⟨_, _, _, rfl⟩ := housed
  rfl

theorem Housed.config {before after : HubCore}
    (housed : Housed before after) : after.config = before.config := by
  obtain ⟨_, _, _, rfl⟩ := housed
  rfl

theorem Housed.byIdentity {before after : HubCore} (housed : Housed before after) :
    after.byIdentity = before.byIdentity := by
  obtain ⟨_, _, _, rfl⟩ := housed
  rfl

theorem Housed.sessionIdentity {before after : HubCore}
    (housed : Housed before after) (link : LinkId) :
    after.sessionIdentity link = before.sessionIdentity link := by
  rw [HubCore.sessionIdentity, housed.sessions]
  rfl

end HubCore

/-- What remains of a room when a link goes. -/
def HubRoom.detach (room : HubRoom) (linkId : LinkId) : Option HubRoom :=
  if (room.members.erase linkId).isEmpty && !room.registered then none
  else some { room with members := room.members.erase linkId }

namespace HubTurn

/-! ## Removing a link -/

theorem housed_mintRoomToken (turn : HubTurn) (roomName : String) :
    HubCore.Housed turn.core (turn.mintRoomToken roomName).core := by
  obtain ⟨roomTokens, tokensDrawn, minted⟩ := turn.mintRoomToken_eq roomName
  rw [minted]
  exact ⟨turn.core.rooms, roomTokens, tokensDrawn, rfl⟩

theorem mintRoomToken_rooms (turn : HubTurn) (roomName : String) :
    (turn.mintRoomToken roomName).core.rooms = turn.core.rooms := by
  obtain ⟨roomTokens, tokensDrawn, minted⟩ := turn.mintRoomToken_eq roomName
  rw [minted]
  rfl

theorem mintRoomToken_out (turn : HubTurn) (roomName : String) :
    (turn.mintRoomToken roomName).out = turn.out := by
  obtain ⟨roomTokens, tokensDrawn, minted⟩ := turn.mintRoomToken_eq roomName
  rw [minted]
  rfl

theorem housed_detachLink (turn : HubTurn) (roomName : String) (linkId : LinkId) :
    HubCore.Housed turn.core (turn.detachLink roomName linkId).core := by
  unfold detachLink
  split
  · exact .refl turn.core
  · dsimp only [mapCore_core]
    split
    · exact ⟨_, _, _, rfl⟩
    · exact ⟨_, _, _, rfl⟩

theorem detachLink_lookup (turn : HubTurn) (roomName name : String) (linkId : LinkId) :
    (turn.detachLink roomName linkId).core.rooms.lookup name =
      if name = roomName then
        (turn.core.rooms.lookup roomName).bind fun room =>
          room.detach linkId
      else turn.core.rooms.lookup name := by
  unfold detachLink
  cases held : turn.core.rooms.lookup roomName with
  | none =>
      simp only [Option.bind_none]
      split
      · rename_i same
        rw [same, held]
      · rfl
  | some room =>
      simp only [Option.bind_some, HubRoom.detach, mapCore_core]
      split
      · simp
      · simp

theorem detachLink_out (turn : HubTurn) (roomName : String) (linkId : LinkId) :
    (turn.detachLink roomName linkId).out = turn.out := by
  unfold detachLink
  split
  · rfl
  · rfl

theorem housed_removeMemberWithParted (turn : HubTurn) (roomName : String)
    (linkId : LinkId) (identity : IdentityHash) (nickname : Option String) :
    HubCore.Housed turn.core
      (turn.removeMemberWithParted roomName linkId identity
        nickname).core := by
  unfold removeMemberWithParted
  split
  · exact .refl turn.core
  · have housed := (turn.housed_mintRoomToken roomName).trans
      (housed_detachLink _ roomName linkId)
    dsimp only
    split
    · exact housed
    · rw [pushAll_core]
      exact housed

theorem removeMemberWithParted_lookup (turn : HubTurn)
    (roomName name : String) (linkId : LinkId) (identity : IdentityHash)
    (nickname : Option String) :
    (turn.removeMemberWithParted roomName linkId identity
        nickname).core.rooms.lookup name =
      if name = roomName then
        (turn.core.rooms.lookup roomName).bind fun room =>
          room.detach linkId
      else turn.core.rooms.lookup name := by
  have detached := detachLink_lookup (turn.mintRoomToken roomName) roomName name linkId
  rw [mintRoomToken_rooms] at detached
  unfold removeMemberWithParted
  split
  · rename_i absent
    split
    · rename_i same
      rw [same, absent]
      rfl
    · rfl
  · dsimp only
    split
    · exact detached
    · rw [pushAll_core]
      exact detached

theorem heard_prefix {before after : HubTurn}
    (extended : before.out <+: after.out) (listener : LinkId) (name : String) :
    before.heard listener name <+: after.heard listener name := by
  obtain ⟨more, equal⟩ := extended
  exact ⟨more.flatMap (Sent.notes listener name), by
    rw [heard, heard, ← equal, List.flatMap_append]⟩

theorem grows_removeMemberWithParted (turn : HubTurn) (roomName : String)
    (linkId : LinkId) (identity : IdentityHash) (nickname : Option String)
    (listener : LinkId) (name : String) :
    turn.heard listener name <+:
      (turn.removeMemberWithParted roomName linkId identity
        nickname).heard listener name := by
  have out : ((turn.mintRoomToken roomName).detachLink roomName
      linkId).out = turn.out := by
    rw [detachLink_out, mintRoomToken_out]
  refine heard_prefix ?_ listener name
  unfold removeMemberWithParted
  split
  · exact List.prefix_rfl
  · dsimp only
    split
    · exact ⟨[], by rw [out, List.append_nil]⟩
    · rw [pushAll_out, out]
      exact List.prefix_append _ _

/-- A member that stays hears of the departure when no other link in the room
belongs to the identity. -/
theorem heard_removeMemberWithParted {turn : HubTurn} {roomName : String}
    {room : HubRoom} (told : turn.core.config.includeMemberList = true)
    (held : turn.core.rooms.lookup roomName = some room) (linkId : LinkId)
    (identity : IdentityHash) (nickname : Option String) (listener : LinkId) (name : String) :
    (turn.removeMemberWithParted roomName linkId identity
        nickname).heard listener name =
      turn.heard listener name ++
        if name = roomName ∧ listener ≠ linkId ∧ listener ∈ room.members ∧
            ¬ turn.core.identityStillInRoom room identity linkId = true then
          [.parted identity]
        else [] := by
  have out : ((turn.mintRoomToken roomName).detachLink roomName
      linkId).heard = turn.heard := by
    funext listener name
    rw [heard, detachLink_out, mintRoomToken_out]
    rfl
  have housed := (turn.housed_mintRoomToken roomName).trans
    (housed_detachLink _ roomName linkId)
  have detached := detachLink_lookup (turn.mintRoomToken roomName) roomName roomName linkId
  rw [mintRoomToken_rooms, if_pos rfl, held, Option.bind_some] at detached
  unfold removeMemberWithParted
  rw [held]
  dsimp only
  rw [detached]
  have still : (room.detach linkId).any (fun remaining =>
      HubCore.identityStillInRoom
        ((turn.mintRoomToken roomName).detachLink roomName linkId).core
        remaining identity linkId) =
      turn.core.identityStillInRoom room identity linkId := by
    rw [Bool.eq_iff_iff, HubCore.identityStillInRoom_iff, Option.any_eq_true]
    simp only [HubRoom.detach, HubCore.identityStillInRoom_iff, housed.sessionIdentity]
    constructor
    · rintro ⟨remaining, kept, member, inside, other, proved⟩
      split at kept
      · cases kept
      · cases kept
        exact ⟨member, ((FiniteSet.mem_erase _ _ _).mp inside).2, other, proved⟩
    · rintro ⟨member, inside, other, proved⟩
      have kept : member ∈ room.members.erase linkId :=
        (FiniteSet.mem_erase _ _ _).mpr ⟨other, inside⟩
      have notEmpty : ¬ (room.members.erase linkId).isEmpty = true :=
        fun empty => (FiniteSet.isEmpty_iff _).mp empty member kept
      simp only [notEmpty, Bool.false_and, Bool.false_eq_true, if_false]
      exact ⟨_, rfl, member, kept, other, proved⟩
  rw [still]
  split
  · rename_i present
    rw [out]
    simp [present]
  · rename_i gone
    rw [heard_broadcast _ (room.members.erase linkId).nodup, out]
    congr 1
    have scope : (((turn.mintRoomToken roomName).detachLink roomName
        linkId).partedEnvelope roomName identity nickname).room =
        some roomName := rfl
    have content : rosterNotes (((turn.mintRoomToken roomName).detachLink
        roomName linkId).partedEnvelope roomName identity nickname) =
        [.parted identity] := by
      have body : (((turn.mintRoomToken roomName).detachLink roomName
          linkId).partedEnvelope roomName identity nickname).body =
          some (memberList [identity]) := by
        simp [partedEnvelope, hubEnvelope, rosterChangeBody, housed.config, told]
      have kind : (((turn.mintRoomToken roomName).detachLink roomName
          linkId).partedEnvelope roomName identity nickname).messageType =
          .parted := rfl
      rw [rosterNotes, kind]
      simp only [memberIdentities_memberList _ _ body, List.map_cons, List.map_nil]
    rw [scope, content]
    refine if_congr ?_ rfl rfl
    rw [FiniteSet.mem_toList, FiniteSet.mem_erase, Option.some.injEq]
    constructor
    · rintro ⟨⟨other, inside⟩, same⟩
      exact ⟨same.symm, other, inside, gone⟩
    · rintro ⟨same, other, inside, -⟩
      exact ⟨⟨other, inside⟩, same.symm⟩

end HubTurn

/-! ## Departures -/

/-- Another link of the identity is in the room. -/
def HubCore.StillIn (core : HubCore) (roomName : String)
    (identity : IdentityHash) (leaving : LinkId → Prop) : Prop :=
  ∃ other, core.roll.members roomName other ∧ ¬ leaving other ∧
    core.sessionIdentity other = some identity

/-- Links of one identity left rooms, and those that stay know.  `leaving`
says which links left which rooms. -/
structure Departed (leaving : String → LinkId → Prop)
    (identity : IdentityHash) (before after : HubTurn) : Prop where
  grows : ∀ listener name, before.heard listener name <+: after.heard listener name
  identities : ∀ link, after.core.sessionIdentity link = before.core.sessionIdentity link
  config : after.core.config = before.core.config
  byIdentity : after.core.byIdentity = before.core.byIdentity
  members : ∀ name link, after.core.roll.members name link ↔
    before.core.roll.members name link ∧ ¬ leaving name link
  banned : ∀ name other, after.core.roll.banned name other → before.core.roll.banned name other
  quiet : before.core.config.includeMemberList = true →
    ∀ listener name, ¬ leaving name listener →
      ((∀ link, ¬ leaving name link) ∨ before.core.StillIn name identity (leaving name)) →
      after.heard listener name = before.heard listener name
  told : before.core.config.includeMemberList = true →
    ∀ listener name, ¬ leaving name listener →
      before.core.roll.members name listener →
      (∃ link, leaving name link) →
      ¬ before.core.StillIn name identity (leaving name) →
      after.heard listener name = before.heard listener name ++ [.parted identity]

namespace HubTurn

theorem members_detached {before after : HubCore} {roomName : String} {linkId : LinkId}
    (lookup : ∀ name, after.rooms.lookup name =
      if name = roomName then
        (before.rooms.lookup roomName).bind fun room => room.detach linkId
      else before.rooms.lookup name)
    (name : String) (link : LinkId) :
    after.roll.members name link ↔
      before.roll.members name link ∧
        ¬ (name = roomName ∧ link = linkId) := by
  simp only [HubCore.roll, lookup]
  by_cases same : name = roomName
  · subst same
    simp only [if_true, Option.bind_eq_some_iff, HubRoom.detach, true_and]
    constructor
    · rintro ⟨remaining, ⟨room, held, kept⟩, inside⟩
      split at kept
      · cases kept
      · cases kept
        obtain ⟨other, member⟩ := (FiniteSet.mem_erase _ _ _).mp inside
        exact ⟨⟨room, held, member⟩, other⟩
    · rintro ⟨⟨room, held, inside⟩, other⟩
      have kept : link ∈ room.members.erase linkId :=
        (FiniteSet.mem_erase _ _ _).mpr ⟨other, inside⟩
      have notEmpty : ¬ (room.members.erase linkId).isEmpty = true :=
        fun empty => (FiniteSet.isEmpty_iff _).mp empty link kept
      refine ⟨{ room with members := room.members.erase linkId }, ⟨room, held, ?_⟩, kept⟩
      simp only [notEmpty, Bool.false_and, Bool.false_eq_true, if_false]
  · simp [same]

theorem banned_detached {before after : HubCore} {roomName : String} {linkId : LinkId}
    (lookup : ∀ name, after.rooms.lookup name =
      if name = roomName then
        (before.rooms.lookup roomName).bind fun room => room.detach linkId
      else before.rooms.lookup name)
    (name : String) (identity : IdentityHash) (banned : after.roll.banned name identity) :
    before.roll.banned name identity := by
  obtain ⟨remaining, held, inside⟩ := banned
  rw [lookup] at held
  split at held
  · rename_i same
    obtain ⟨room, found, kept⟩ := Option.bind_eq_some_iff.mp held
    unfold HubRoom.detach at kept
    split at kept
    · cases kept
    · cases kept
      exact ⟨room, same ▸ found, inside⟩
  · exact ⟨remaining, held, inside⟩

theorem departed_removeMemberWithParted (turn : HubTurn)
    (roomName : String) (linkId : LinkId) (identity : IdentityHash) (nickname : Option String) :
    Departed (fun name link => name = roomName ∧ link = linkId) identity turn
      (turn.removeMemberWithParted roomName linkId identity nickname) := by
  have housed := turn.housed_removeMemberWithParted roomName linkId identity nickname
  have lookup := fun name => turn.removeMemberWithParted_lookup roomName name
    linkId identity nickname
  have absentSame : turn.core.rooms.lookup roomName = none →
      turn.removeMemberWithParted roomName linkId identity nickname = turn := by
    intro absent
    unfold removeMemberWithParted
    rw [absent]
  have still : ∀ room, turn.core.rooms.lookup roomName = some room →
      (turn.core.StillIn roomName identity
          (fun link => roomName = roomName ∧ link = linkId) ↔
        turn.core.identityStillInRoom room identity linkId = true) := by
    intro room held
    rw [HubCore.identityStillInRoom_iff]
    constructor
    · rintro ⟨other, ⟨found, foundHeld, inside⟩, stays, proved⟩
      have equal : found = room :=
        Option.some.inj (foundHeld.symm.trans held)
      exact ⟨other, equal ▸ inside, fun same => stays ⟨rfl, same⟩, proved⟩
    · rintro ⟨other, inside, different, proved⟩
      exact ⟨other, ⟨room, held, inside⟩, fun gone => different gone.2,
        proved⟩
  refine ⟨turn.grows_removeMemberWithParted roomName linkId identity nickname,
    housed.sessionIdentity, housed.config, housed.byIdentity,
    members_detached lookup, banned_detached lookup,
    fun told listener name stays silent => ?_,
    fun told listener name stays member leaves gone => ?_⟩
  · cases held : turn.core.rooms.lookup roomName with
    | none => rw [absentSame held]
    | some room =>
        rw [heard_removeMemberWithParted told held, if_neg, List.append_nil]
        rintro ⟨rfl, -, -, alone⟩
        rcases silent with none | present
        · exact none linkId ⟨rfl, rfl⟩
        · exact alone ((still room held).mp present)
  · obtain ⟨link, rfl, rfl⟩ := leaves
    obtain ⟨room, held, inside⟩ := member
    rw [heard_removeMemberWithParted told held, if_pos]
    exact ⟨rfl, fun same => stays ⟨rfl, same⟩, inside,
      fun present => gone ((still room held).mpr present)⟩

end HubTurn

/-- What changes neither who is where nor what is heard. -/
structure Steady (before after : HubTurn) : Prop where
  identities : ∀ link, after.core.sessionIdentity link = before.core.sessionIdentity link
  config : after.core.config = before.core.config
  byIdentity : after.core.byIdentity = before.core.byIdentity
  members : ∀ name link, after.core.roll.members name link ↔ before.core.roll.members name link
  banned : ∀ name other, after.core.roll.banned name other → before.core.roll.banned name other
  heard : after.heard = before.heard

theorem Departed.after_steady {leaving : String → LinkId → Prop}
    {identity : IdentityHash} {before middle after : HubTurn}
    (steady : Steady before middle) (departed : Departed leaving identity middle after) :
    Departed leaving identity before after := by
  have still : ∀ name, middle.core.StillIn name identity (leaving name) ↔
      before.core.StillIn name identity (leaving name) := by
    intro name
    simp only [HubCore.StillIn, steady.members, steady.identities]
  refine ⟨fun listener name => steady.heard ▸ departed.grows listener name,
    fun link => (departed.identities link).trans
      (steady.identities link), departed.config.trans steady.config,
    departed.byIdentity.trans steady.byIdentity, fun name link => ?_,
    fun name other banned =>
      steady.banned name other (departed.banned name other banned),
    fun told listener name stays silent => ?_,
    fun told listener name stays member leaves gone => ?_⟩
  · rw [departed.members, steady.members]
  · rw [departed.quiet (steady.config ▸ told) listener name stays
      (silent.imp id (still name).mpr), steady.heard]
  · rw [departed.told (steady.config ▸ told) listener name stays
      ((steady.members name listener).mpr member) leaves
      fun present => gone ((still name).mp present), steady.heard]

theorem Departed.before_steady {leaving : String → LinkId → Prop}
    {identity : IdentityHash} {before middle after : HubTurn}
    (departed : Departed leaving identity before middle) (steady : Steady middle after) :
    Departed leaving identity before after := by
  refine ⟨fun listener name => steady.heard ▸ departed.grows listener name,
    fun link => (steady.identities link).trans
      (departed.identities link), steady.config.trans departed.config,
    steady.byIdentity.trans departed.byIdentity, fun name link => ?_,
    fun name other banned =>
      departed.banned name other (steady.banned name other banned),
    fun told listener name stays silent => ?_,
    fun told listener name stays member leaves gone => ?_⟩
  · rw [steady.members, departed.members]
  · rw [steady.heard, departed.quiet told listener name stays silent]
  · rw [steady.heard, departed.told told listener name stays member leaves gone]

theorem Departed.none {before after : HubTurn} (steady : Steady before after)
    {leaving : String → LinkId → Prop} (identity : IdentityHash)
    (nobody : ∀ name link, ¬ leaving name link) :
    Departed leaving identity before after := by
  refine ⟨fun listener name => steady.heard ▸ List.prefix_rfl,
    steady.identities, steady.config, steady.byIdentity,
    fun name link => ?_, steady.banned, fun told listener name stays silent => ?_,
    fun told listener name stays member leaves gone => ?_⟩
  · rw [steady.members]
    exact ⟨fun member => ⟨member, nobody name link⟩, And.left⟩
  · rw [steady.heard]
  · obtain ⟨link, leaves⟩ := leaves
    exact absurd leaves (nobody name link)

/-- Departures one after the other.  Where links leave one room in both, it
is the last one of the identity that is heard of. -/
theorem Departed.trans {first second : String → LinkId → Prop}
    {identity : IdentityHash} {before middle after : HubTurn}
    (one : Departed first identity before middle) (two : Departed second identity middle after)
    (joint : ∀ name link, (∃ other, first name other) → second name link →
      ¬ first name link ∧ before.core.roll.members name link ∧
        before.core.sessionIdentity link = some identity) :
    Departed (fun name link => first name link ∨ second name link) identity
      before after := by
  have laterStill : ∀ name,
      before.core.StillIn name identity
          (fun link => first name link ∨ second name link) ↔
        middle.core.StillIn name identity (second name) := by
    intro name
    simp only [HubCore.StillIn, one.members, one.identities, not_or]
    constructor
    · rintro ⟨other, member, ⟨staysFirst, staysSecond⟩, proved⟩
      exact ⟨other, ⟨member, staysFirst⟩, staysSecond, proved⟩
    · rintro ⟨other, ⟨member, staysFirst⟩, staysSecond, proved⟩
      exact ⟨other, member, ⟨staysFirst, staysSecond⟩, proved⟩
  have earlierStill : ∀ name,
      before.core.StillIn name identity
          (fun link => first name link ∨ second name link) →
        before.core.StillIn name identity (first name) := by
    rintro name ⟨other, member, stays, proved⟩
    exact ⟨other, member, fun leaves => stays (Or.inl leaves), proved⟩
  refine ⟨fun listener name =>
      (one.grows listener name).trans (two.grows listener name),
    fun link => (two.identities link).trans (one.identities link),
    two.config.trans one.config, two.byIdentity.trans one.byIdentity,
    fun name link => ?_,
    fun name other banned => one.banned name other (two.banned name other
      banned),
    fun told listener name stays silent => ?_,
    fun told listener name stays member leaves gone => ?_⟩
  · rw [two.members, one.members, not_or, and_assoc]
  · have toldLater := one.config ▸ told
    obtain ⟨staysFirst, staysSecond⟩ := not_or.mp stays
    rcases silent with none | present
    · rw [two.quiet toldLater listener name staysSecond
          (Or.inl fun link leaves => none link (Or.inr leaves)),
        one.quiet told listener name staysFirst
          (Or.inl fun link leaves => none link (Or.inl leaves))]
    · rw [two.quiet toldLater listener name staysSecond
          (Or.inr ((laterStill name).mp present)),
        one.quiet told listener name staysFirst (Or.inr (earlierStill name present))]
  · have toldLater := one.config ▸ told
    obtain ⟨staysFirst, staysSecond⟩ := not_or.mp stays
    have memberLater : middle.core.roll.members name listener :=
      (one.members name listener).mpr ⟨member, staysFirst⟩
    have goneLater : ¬ middle.core.StillIn name identity (second name) :=
      fun present => gone ((laterStill name).mpr present)
    by_cases leavesLater : ∃ link, second name link
    · rw [two.told toldLater listener name staysSecond memberLater
        leavesLater goneLater]
      congr 1
      refine one.quiet told listener name staysFirst ?_
      by_cases leavesFirst : ∃ link, first name link
      · obtain ⟨link, later⟩ := leavesLater
        obtain ⟨staysLink, inside, proved⟩ := joint name link leavesFirst later
        exact Or.inr ⟨link, inside, staysLink, proved⟩
      · exact Or.inl fun link leaving => leavesFirst ⟨link, leaving⟩
    · have noneLater : ∀ link, ¬ second name link := fun link leaving =>
        leavesLater ⟨link, leaving⟩
      rw [two.quiet toldLater listener name staysSecond (Or.inl noneLater)]
      refine one.told told listener name staysFirst member ?_ ?_
      · obtain ⟨link, leaving | leaving⟩ := leaves
        · exact ⟨link, leaving⟩
        · exact absurd leaving (noneLater link)
      · rintro ⟨other, inside, staysOther, proved⟩
        exact gone ⟨other, inside, not_or.mpr ⟨staysOther, noneLater other⟩, proved⟩

theorem Departed.congr {first second : String → LinkId → Prop}
    {identity : IdentityHash} {before after : HubTurn}
    (departed : Departed first identity before after)
    (same : ∀ name link, first name link ↔ second name link) :
    Departed second identity before after := by
  have equal : first = second :=
    funext fun name => funext fun link => propext (same name link)
  exact equal ▸ departed

namespace HubTurn

theorem steady_push {turn : HubTurn} {send : HubSend}
    {hubHash : IdentityHash} (plain : HubSend.Plain hubHash send) :
    Steady turn (turn.push send) :=
  ⟨fun _ => rfl, rfl, rfl, fun _ _ => Iff.rfl, fun _ _ => id,
    heard_push_plain plain⟩

theorem steady_modifySession (turn : HubTurn) (linkId : LinkId)
    {change : HubSession → HubSession}
    (same : ∀ session, (change session).identity = session.identity) :
    Steady turn (turn.modifySession linkId change) := by
  refine ⟨fun link => ?_, rfl, rfl, fun _ _ => Iff.rfl, fun _ _ => id, rfl⟩
  simp only [HubCore.sessionIdentity, modifySession, mapCore_core, FiniteMap.lookup_adjust]
  split
  · rename_i equal
    subst equal
    cases turn.core.sessions.lookup link with
    | none => rfl
    | some session => exact same session
  · rfl

theorem steady_modifyRoom (turn : HubTurn) (roomName : String) {change : HubRoom → HubRoom}
    (members : ∀ room, turn.core.rooms.lookup roomName = some room →
      (change room).members = room.members)
    (bans : ∀ room, turn.core.rooms.lookup roomName = some room →
      ∀ identity, identity ∈ (change room).bans → identity ∈ room.bans) :
    Steady turn (turn.modifyRoom roomName change) := by
  refine ⟨fun _ => rfl, rfl, rfl, fun name link => ?_,
    fun name other banned => ?_, rfl⟩
  · simp only [HubCore.roll, modifyRoom, mapCore_core,
      FiniteMap.lookup_adjust]
    by_cases equal : name = roomName
    · subst equal
      cases held : turn.core.rooms.lookup name with
      | none => simp
      | some room => simp [members room held]
    · simp [equal]
  · obtain ⟨room, held, inside⟩ := banned
    simp only [modifyRoom, mapCore_core, FiniteMap.lookup_adjust] at held
    split at held
    · rename_i equal
      obtain ⟨found, foundHeld, rfl⟩ := Option.map_eq_some_iff.mp held
      exact ⟨found, equal ▸ foundHeld, bans found foundHeld other inside⟩
    · exact ⟨room, held, inside⟩

/-! ## Turning links out of a room -/

theorem departed_ejectLink (turn : HubTurn) (roomName : String)
    (target : IdentityHash) (reason : String) (linkId : LinkId) :
    Departed (fun name link => name = roomName ∧ link = linkId) target turn
      (ejectLink roomName target reason turn linkId) := by
  unfold ejectLink
  refine Departed.before_steady ?_ (steady_push (plain_hubError _ _ _ _))
  refine Departed.after_steady (turn.steady_modifySession linkId ?_)
    (departed_removeMemberWithParted _ roomName linkId target _)
  intro session
  rfl

theorem departed_ejectLinks (roomName : String) (target : IdentityHash)
    (reason : String) {links : List LinkId} (nodup : links.Nodup) (turn : HubTurn)
    (inside : ∀ link ∈ links, turn.core.roll.members roomName link ∧
      turn.core.sessionIdentity link = some target) :
    Departed (fun name link => name = roomName ∧ link ∈ links) target turn
      (links.foldl (ejectLink roomName target reason) turn) := by
  induction links generalizing turn with
  | nil =>
      refine Departed.none ⟨fun _ => rfl, rfl, rfl, fun _ _ => Iff.rfl,
        fun _ _ => id, rfl⟩ target ?_
      simp
  | cons linkId rest ih =>
      obtain ⟨fresh, restNodup⟩ := List.nodup_cons.mp nodup
      have one := turn.departed_ejectLink roomName target reason linkId
      have two := ih restNodup (ejectLink roomName target reason turn linkId) ?_
      · refine (one.trans two ?_).congr fun name link => ?_
        · rintro name link - ⟨rfl, later⟩
          have different : link ≠ linkId := by
            rintro rfl
            exact fresh later
          have known := inside link (List.mem_cons_of_mem linkId later)
          exact ⟨fun same => different same.2, known.1, known.2⟩
        · rw [List.mem_cons, and_or_left]
      · intro link later
        have different : link ≠ linkId := by
          rintro rfl
          exact fresh later
        have known := inside link (List.mem_cons_of_mem linkId later)
        refine ⟨(one.members roomName link).mpr ⟨known.1, fun same => different same.2⟩, ?_⟩
        rw [one.identities]
        exact known.2

theorem mem_roomLinksForIdentity (core : HubCore) (roomName : String)
    (target : IdentityHash) (link : LinkId) :
    link ∈ core.roomLinksForIdentity roomName target ↔
      core.roll.members roomName link ∧
        core.sessionIdentity link = some target := by
  unfold HubCore.roomLinksForIdentity HubCore.roll
  cases held : core.rooms.lookup roomName with
  | none => simp [held]
  | some room => simp [held]

theorem nodup_roomLinksForIdentity (core : HubCore) (roomName : String)
    (target : IdentityHash) :
    (core.roomLinksForIdentity roomName target).Nodup := by
  unfold HubCore.roomLinksForIdentity
  split
  · exact List.nodup_nil
  · rename_i room held
    exact room.members.nodup.filter _

theorem departed_ejectIdentityFromRoom (turn : HubTurn) (roomName : String)
    (target : IdentityHash) (reason : String) :
    Departed (fun name link => name = roomName ∧
        turn.core.roll.members roomName link ∧
        turn.core.sessionIdentity link = some target) target turn
      (turn.ejectIdentityFromRoom roomName target reason) := by
  unfold ejectIdentityFromRoom
  have steady : Steady turn (turn.revokeLease roomName target) :=
    turn.steady_modifyRoom roomName (fun _ _ => rfl) fun _ _ _ => id
  have ejected := departed_ejectLinks roomName target reason
    (nodup_roomLinksForIdentity turn.core roomName target)
    (turn.revokeLease roomName target) ?_
  · refine (ejected.after_steady steady).congr fun name link => ?_
    rw [mem_roomLinksForIdentity]
  · intro link member
    rw [steady.members, steady.identities]
    exact (mem_roomLinksForIdentity turn.core roomName target link).mp member

theorem ejectLink_sessions (roomName : String) (target : IdentityHash)
    (reason : String) (turn : HubTurn) (linkId : LinkId) :
    (ejectLink roomName target reason turn linkId).core.sessions =
      turn.core.sessions.adjust linkId fun session =>
        { session with rooms := session.rooms.erase roomName } := by
  unfold ejectLink pushError
  rw [push_core, (housed_removeMemberWithParted _ _ _ _ _).sessions]
  rfl

/-- The sessions of links that were turned out no longer count the room. -/
theorem sessions_ejectLinks (roomName : String) (target : IdentityHash)
    (reason : String) {links : List LinkId} (nodup : links.Nodup)
    (turn : HubTurn) (link : LinkId) :
    (links.foldl (ejectLink roomName target reason)
        turn).core.sessions.lookup link =
      if link ∈ links then
        (turn.core.sessions.lookup link).map fun session =>
          { session with rooms := session.rooms.erase roomName }
      else turn.core.sessions.lookup link := by
  induction links generalizing turn with
  | nil => simp
  | cons linkId rest ih =>
      obtain ⟨fresh, restNodup⟩ := List.nodup_cons.mp nodup
      rw [List.foldl_cons, ih restNodup, ejectLink_sessions, FiniteMap.lookup_adjust]
      by_cases same : link = linkId
      · subst same
        simp [fresh]
      · simp [same]

theorem sessions_ejectIdentityFromRoom (turn : HubTurn) (roomName : String)
    (target : IdentityHash) (reason : String) (link : LinkId) :
    (turn.ejectIdentityFromRoom roomName target
        reason).core.sessions.lookup link =
      if link ∈ turn.core.roomLinksForIdentity roomName target then
        (turn.core.sessions.lookup link).map fun session =>
          { session with rooms := session.rooms.erase roomName }
      else turn.core.sessions.lookup link :=
  sessions_ejectLinks roomName target reason
    (nodup_roomLinksForIdentity turn.core roomName target) _ link

/-! ## Ending a session -/

theorem departed_leaveOnClose (expires : Option WallTime) (linkId : LinkId)
    (identity : IdentityHash) (nickname : Option String) (turn : HubTurn) (roomName : String) :
    Departed (fun name link => name = roomName ∧ link = linkId) identity turn
      (leaveOnClose expires linkId identity nickname turn roomName) := by
  unfold leaveOnClose
  extract_lets eligible leased
  refine Departed.after_steady ?_
    (departed_removeMemberWithParted leased roomName linkId identity nickname)
  have unchanged : Steady turn turn :=
    ⟨fun _ => rfl, rfl, rfl, fun _ _ => Iff.rfl, fun _ _ => id, rfl⟩
  simp only [leased]
  split
  · exact unchanged
  · split
    · refine turn.steady_modifyRoom roomName (fun _ _ => ?_) fun _ _ _ => ?_
      · rfl
      · exact id
    · exact unchanged

theorem leaveOnClose_sessions (expires : Option WallTime) (linkId : LinkId)
    (identity : IdentityHash) (nickname : Option String) (turn : HubTurn) (roomName : String) :
    (leaveOnClose expires linkId identity nickname turn
      roomName).core.sessions = turn.core.sessions := by
  unfold leaveOnClose
  extract_lets eligible leased
  rw [(housed_removeMemberWithParted _ _ _ _ _).sessions]
  simp only [leased]
  split
  · rfl
  · split
    · rfl
    · rfl

theorem departed_leaveRooms (expires : Option WallTime) (linkId : LinkId)
    (identity : IdentityHash) (nickname : Option String)
    {rooms : List String} (nodup : rooms.Nodup) (turn : HubTurn) :
    Departed (fun name link => name ∈ rooms ∧ link = linkId) identity turn
      (rooms.foldl (leaveOnClose expires linkId identity nickname) turn) := by
  induction rooms generalizing turn with
  | nil =>
      refine Departed.none ⟨fun _ => rfl, rfl, rfl, fun _ _ => Iff.rfl,
        fun _ _ => id, rfl⟩ identity ?_
      simp
  | cons roomName rest ih =>
      obtain ⟨fresh, restNodup⟩ := List.nodup_cons.mp nodup
      have one := departed_leaveOnClose expires linkId identity nickname turn roomName
      have two := ih restNodup (leaveOnClose expires linkId identity nickname turn roomName)
      refine (one.trans two ?_).congr fun name link => ?_
      · rintro name link ⟨other, rfl, -⟩ ⟨later, -⟩
        exact absurd later fresh
      · rw [List.mem_cons, or_and_right]

theorem leaveRooms_sessions (expires : Option WallTime) (linkId : LinkId)
    (identity : IdentityHash) (nickname : Option String)
    (rooms : List String) (turn : HubTurn) :
    (rooms.foldl (leaveOnClose expires linkId identity nickname)
      turn).core.sessions = turn.core.sessions := by
  induction rooms generalizing turn with
  | nil => rfl
  | cons roomName rest ih => rw [List.foldl_cons, ih, leaveOnClose_sessions]

/-! ## Leaving a room -/

theorem departed_leaveRoom (turn : HubTurn) (roomName : String)
    (linkId : LinkId) (identity : IdentityHash) :
    ∃ left : HubTurn,
      Departed (fun name link => name = roomName ∧ link = linkId) identity
        turn left ∧
      left.core.sessions = turn.core.sessions.adjust linkId (fun session =>
        { session with rooms := session.rooms.erase roomName }) ∧
      turn.leaveRoom roomName linkId identity =
        left.push (.envelope linkId
          (left.partedEnvelope roomName identity none)) := by
  refine ⟨_, ?_, ?_, rfl⟩
  · refine Departed.after_steady (turn.steady_modifySession linkId ?_)
      (departed_removeMemberWithParted _ roomName linkId identity _)
    intro session
    rfl
  · rw [(housed_removeMemberWithParted _ _ _ _ _).sessions]
    rfl

/-! ## Entering a room -/

theorem steady_refl (turn : HubTurn) : Steady turn turn :=
  ⟨fun _ => rfl, rfl, rfl, fun _ _ => Iff.rfl, fun _ _ => id, rfl⟩

theorem heard_pushPersist (turn : HubTurn) (op : HubRoomOp)
    (origin : Option LinkId) (room : Option String) :
    (turn.pushPersist op origin room).heard = turn.heard := by
  funext listener roomName
  rw [pushPersist, heard_push]
  exact List.append_nil _

end HubTurn

theorem Steady.trans {first second third : HubTurn}
    (one : Steady first second) (two : Steady second third) :
    Steady first third :=
  ⟨fun link => (two.identities link).trans (one.identities link),
    two.config.trans one.config, two.byIdentity.trans one.byIdentity,
    fun name link => (two.members name link).trans (one.members name link),
    fun name other banned =>
      one.banned name other (two.banned name other banned),
    two.heard.trans one.heard⟩

namespace HubTurn

theorem steady_pushPersist (turn : HubTurn) (op : HubRoomOp)
    (origin : Option LinkId) (room : Option String) :
    Steady turn (turn.pushPersist op origin room) :=
  ⟨fun _ => rfl, rfl, rfl, fun _ _ => Iff.rfl, fun _ _ => id,
    turn.heard_pushPersist op origin room⟩

theorem steady_persistRoom (turn : HubTurn) (roomName : String) (origin : Option LinkId) :
    Steady turn (turn.persistRoom roomName origin) := by
  unfold persistRoom
  split
  · exact turn.steady_refl
  · split
    · exact turn.steady_refl
    · refine Steady.trans (turn.steady_modifyRoom roomName (fun _ _ => ?_)
        fun _ _ _ => ?_) (steady_pushPersist _ _ _ _)
      · rfl
      · exact id

theorem persistRoom_sessions (turn : HubTurn) (roomName : String) (origin : Option LinkId) :
    (turn.persistRoom roomName origin).core.sessions =
      turn.core.sessions := by
  unfold persistRoom
  split
  · rfl
  · split
    · rfl
    · rfl

/-- What seating a link changes. -/
structure Seated (roomName : String) (linkId : LinkId)
    (before after : HubTurn) : Prop where
  grows : ∀ listener name, before.heard listener name <+: after.heard listener name
  identities : ∀ link, after.core.sessionIdentity link = before.core.sessionIdentity link
  config : after.core.config = before.core.config
  byIdentity : after.core.byIdentity = before.core.byIdentity
  sessions : after.core.sessions =
    before.core.sessions.adjust linkId fun session =>
      { session with rooms := session.rooms.insert roomName }
  members : ∀ name link, after.core.roll.members name link ↔
    before.core.roll.members name link ∨ (name = roomName ∧ link = linkId)
  banned : ∀ name other, after.core.roll.banned name other → before.core.roll.banned name other

theorem seated_seatMember {turn : HubTurn} {roomName : String}
    {room : HubRoom} (held : turn.core.rooms.lookup roomName = some room)
    (linkId : LinkId) (identity : IdentityHash) :
    Seated roomName linkId turn
        (turn.seatMember roomName linkId identity) ∧
      (turn.seatMember roomName linkId identity).heard = turn.heard := by
  unfold seatMember
  extract_lets consumedInvite seated persisted
  have entered : ∀ name link,
      (turn.modifyRoom roomName fun room =>
        { room with
          members := room.members.insert linkId
          invited := room.invited.erase identity
          rejoinUntil := room.rejoinUntil.erase identity }).core.roll.members name link ↔
        turn.core.roll.members name link ∨
          (name = roomName ∧ link = linkId) := by
    intro name link
    simp only [HubCore.roll, modifyRoom, mapCore_core, FiniteMap.lookup_adjust]
    by_cases same : name = roomName
    · subst same
      simp only [if_true, held, Option.map_some, Option.some.injEq,
        exists_eq_left', FiniteSet.mem_insert, true_and]
      exact or_comm
    · simp [same]
  have kept : ∀ name other,
      (turn.modifyRoom roomName fun room =>
        { room with
          members := room.members.insert linkId
          invited := room.invited.erase identity
          rejoinUntil := room.rejoinUntil.erase identity }).core.roll.banned name other →
        turn.core.roll.banned name other := by
    rintro name other ⟨found, foundHeld, inside⟩
    simp only [modifyRoom, mapCore_core, FiniteMap.lookup_adjust] at foundHeld
    split at foundHeld
    · rename_i same
      rw [held] at foundHeld
      cases foundHeld
      exact ⟨room, same ▸ held, inside⟩
    · exact ⟨found, foundHeld, inside⟩
  have touched : Steady (turn.modifyRoom roomName fun room =>
      { room with
        members := room.members.insert linkId
        invited := room.invited.erase identity
        rejoinUntil := room.rejoinUntil.erase identity }) seated := by
    refine steady_modifyRoom _ roomName (fun found _ => ?_) fun found _ _ => ?_
    · split
      · rfl
      · rfl
    · split
      · exact id
      · exact id
  have stored : Steady seated persisted := by
    simp only [persisted]
    split
    · exact steady_persistRoom seated roomName _
    · exact seated.steady_refl
  have sessionsSame : persisted.core.sessions = turn.core.sessions := by
    simp only [persisted]
    split
    · exact persistRoom_sessions seated roomName _
    · rfl
  have listed : Steady persisted (persisted.modifySession linkId fun session =>
      { session with rooms := session.rooms.insert roomName }) := by
    refine persisted.steady_modifySession linkId fun _ => ?_
    rfl
  have steady := (touched.trans stored).trans listed
  refine ⟨⟨fun listener name => steady.heard ▸ List.prefix_rfl,
    steady.identities, steady.config, steady.byIdentity, ?_,
    fun name link => (steady.members name link).trans (entered name link),
    fun name other banned =>
      kept name other (steady.banned name other banned)⟩, steady.heard⟩
  rw [← sessionsSame]
  rfl

/-- The other members hear of the entry of an identity. -/
theorem heard_announceJoined {turn : HubTurn}
    (told : turn.core.config.includeMemberList = true) (roomName : String)
    (linkId : LinkId) (identity : IdentityHash) {members : List LinkId}
    (nodup : members.Nodup) (listener : LinkId) (name : String) :
    (turn.announceJoined roomName linkId identity members).heard listener
        name =
      turn.heard listener name ++
        if listener ∈ members ∧ name = roomName then [.joined identity]
        else [] := by
  unfold announceJoined
  rw [heard_broadcast _ nodup]
  have content : rosterNotes (turn.joinedEnvelope roomName
      (turn.rosterChangeBody identity) (turn.core.sessionNickname linkId)) =
      [.joined identity] := by
    have body : (turn.joinedEnvelope roomName
        (turn.rosterChangeBody identity)
        (turn.core.sessionNickname linkId)).body =
        some (memberList [identity]) := by
      simp [joinedEnvelope, hubEnvelope, rosterChangeBody, told]
    have kind : (turn.joinedEnvelope roomName
        (turn.rosterChangeBody identity)
        (turn.core.sessionNickname linkId)).messageType = .joined := rfl
    rw [rosterNotes, kind]
    simp only [memberIdentities_memberList _ _ body, List.map_cons, List.map_nil]
  have scope : (turn.joinedEnvelope roomName
      (turn.rosterChangeBody identity)
      (turn.core.sessionNickname linkId)).room = some roomName := rfl
  rw [content, scope]
  by_cases same : name = roomName
  · simp [same]
  · have other : ¬ roomName = name := fun equal => same equal.symm
    simp [same, other]

end HubTurn

theorem flatten_rebalance {α : Type} (chunks : List (List α)) :
    (rebalance chunks).flatten = chunks.flatten := by
  induction chunks using rebalance.induct with
  | case1 => rfl
  | case2 chunk => rfl
  | case3 previous lone absent => simp [rebalance, absent]
  | case4 previous lone borrowed last =>
      have rebuilt : previous = previous.dropLast ++ [borrowed] :=
        (List.dropLast_append_getLast? borrowed last).symm
      simp only [rebalance, last, List.flatten_cons, List.flatten_nil, List.append_nil]
      conv_rhs => rw [rebuilt]
      simp
  | case5 chunk rest notLone notPair ih =>
      rw [rebalance, List.flatten_cons, ih, List.flatten_cons]
      · exact notLone
      · exact notPair

theorem flatten_rosterChunks {perChunk : Nat} (positive : 0 < perChunk)
    (joiner : IdentityHash) (roster : List IdentityHash) :
    (rosterChunks perChunk joiner roster).flatten =
      joiner :: roster.filter (· ≠ joiner) := by
  rw [rosterChunks, flatten_rebalance]
  exact flatten_chunksOf positive _ _ le_rfl

namespace HubTurn

theorem announceJoined_core (turn : HubTurn) (roomName : String)
    (linkId : LinkId) (identity : IdentityHash) (members : List LinkId) :
    (turn.announceJoined roomName linkId identity members).core = turn.core :=
  turn.pushAll_core _

theorem confirmJoined_core (turn : HubTurn) (roomName : String)
    (linkId : LinkId) (identity : IdentityHash) :
    (turn.confirmJoined roomName linkId identity).core = turn.core := by
  unfold confirmJoined
  split
  · split
    · rfl
    · exact turn.pushAll_core _
  · rfl

theorem rosterChunkLen_pos (turn : HubTurn) (roomName : String) :
    0 < turn.rosterChunkLen roomName :=
  Nat.lt_of_lt_of_le Nat.zero_lt_one (Nat.le_max_right _ _)

/-- The joiner reads the whole roster, in whatever number of packets. -/
theorem heard_confirmJoined {turn : HubTurn} {roomName : String}
    {room : HubRoom} (told : turn.core.config.includeMemberList = true)
    (held : turn.core.rooms.lookup roomName = some room) (linkId : LinkId)
    (identity : IdentityHash) (listener : LinkId) (name : String) :
    (turn.confirmJoined roomName linkId identity).heard listener name =
      turn.heard listener name ++
        if listener = linkId ∧ name = roomName then
          (identity :: (turn.core.rosterIdentities room).filter (· ≠ identity)).map .joined
        else [] := by
  unfold confirmJoined pushRosterJoined
  rw [if_pos told, held]
  dsimp only
  rw [heard_pushAll, List.flatMap_map,
    ← flatten_rosterChunks (turn.rosterChunkLen_pos roomName) identity
      (turn.core.rosterIdentities room)]
  congr 1
  have each : ∀ chunk : List IdentityHash,
      Sent.notes listener name ⟨.envelope linkId
        (turn.joinedEnvelope roomName (some (memberList chunk)) none),
        turn.core⟩ =
        if listener = linkId ∧ name = roomName then chunk.map .joined
        else [] := by
    intro chunk
    have content : rosterNotes (turn.joinedEnvelope roomName
        (some (memberList chunk)) none) = chunk.map .joined := by
      have kind : (turn.joinedEnvelope roomName (some (memberList chunk))
          none).messageType = .joined := rfl
      rw [rosterNotes, kind]
      simp only [memberIdentities_memberList chunk
        (turn.joinedEnvelope roomName (some (memberList chunk)) none) rfl]
    have scope : (turn.joinedEnvelope roomName (some (memberList chunk))
        none).room = some roomName := rfl
    unfold Sent.notes
    dsimp only
    rw [content, scope]
    by_cases same : listener = linkId ∧ name = roomName
    · obtain ⟨rfl, rfl⟩ := same
      simp
    · rw [if_neg same, if_neg]
      rintro ⟨rfl, sameRoom⟩
      exact same ⟨rfl, (Option.some.inj sameRoom).symm⟩
  simp only [each]
  split
  · rw [List.map_flatten, List.flatMap_def]
  · simp

theorem enterRoom_core (turn : HubTurn) (roomName : String)
    (linkId : LinkId) (identity : IdentityHash) :
    (turn.enterRoom roomName linkId identity).core =
      (turn.seatMember roomName linkId identity).core := by
  unfold enterRoom
  extract_lets found present existing seatedTurn announced
  rw [confirmJoined_core]
  simp only [announced]
  split
  · rfl
  · rw [announceJoined_core]

theorem grows_enterRoom (turn : HubTurn) (roomName : String)
    (linkId : LinkId) (identity : IdentityHash) (listener : LinkId) (name : String) :
    (turn.seatMember roomName linkId identity).heard listener name <+:
      (turn.enterRoom roomName linkId identity).heard listener name := by
  refine heard_prefix ?_ listener name
  unfold enterRoom
  extract_lets found present existing seatedTurn announced
  have announcing : seatedTurn.out <+: announced.out := by
    simp only [announced]
    split
    · exact List.prefix_rfl
    · unfold announceJoined
      rw [pushAll_out]
      exact List.prefix_append _ _
  refine announcing.trans ?_
  unfold confirmJoined
  split
  · split
    · exact List.prefix_rfl
    · unfold pushRosterJoined
      rw [pushAll_out]
      exact List.prefix_append _ _
  · exact List.prefix_append _ _

theorem seated_enterRoom {turn : HubTurn} {roomName : String}
    {room : HubRoom} (held : turn.core.rooms.lookup roomName = some room)
    (linkId : LinkId) (identity : IdentityHash) :
    Seated roomName linkId turn (turn.enterRoom roomName linkId identity) := by
  have seated := (seated_seatMember held linkId identity).1
  have core := turn.enterRoom_core roomName linkId identity
  exact ⟨fun listener name => (seated.grows listener name).trans
      (turn.grows_enterRoom roomName linkId identity listener name),
    by rw [core]; exact seated.identities,
    by rw [core]; exact seated.config,
    by rw [core]; exact seated.byIdentity,
    by rw [core]; exact seated.sessions,
    by rw [core]; exact seated.members,
    by rw [core]; exact seated.banned⟩

/-- The others in the room hear of an identity that was not there, and the
one that enters reads the roster. -/
theorem heard_enterRoom {turn : HubTurn} {roomName : String} {room after : HubRoom}
    (held : turn.core.rooms.lookup roomName = some room)
    (told : turn.core.config.includeMemberList = true) (linkId : LinkId)
    (identity : IdentityHash) (seatedHeld : (turn.seatMember roomName linkId
      identity).core.rooms.lookup roomName = some after)
    (listener : LinkId) (name : String) :
    (turn.enterRoom roomName linkId identity).heard listener name =
      turn.heard listener name ++
        (if name = roomName ∧ listener ≠ linkId ∧
            listener ∈ room.members ∧
            ¬ turn.core.identityInRoom room identity = true then
          [.joined identity]
        else []) ++
        (if listener = linkId ∧ name = roomName then
          (identity :: (HubCore.rosterIdentities
            (turn.seatMember roomName linkId identity).core after).filter
            (· ≠ identity)).map .joined
        else []) := by
  obtain ⟨seated, heardSeated⟩ := seated_seatMember held linkId identity
  have toldSeated := seated.config ▸ told
  unfold enterRoom
  rw [held]
  extract_lets found present existing seatedTurn announced
  have sameCore : announced.core = seatedTurn.core := by
    simp only [announced]
    split
    · rfl
    · rw [announceJoined_core]
  have announcedHeld : announced.core.rooms.lookup roomName = some after := by
    rw [sameCore]
    exact seatedHeld
  have toldAnnounced : announced.core.config.includeMemberList = true := by
    rw [sameCore]
    exact toldSeated
  rw [heard_confirmJoined toldAnnounced announcedHeld, sameCore]
  congr 1
  have nodup : existing.Nodup := room.members.nodup.filter _
  simp only [announced]
  split
  · rename_i already
    rw [heardSeated, if_neg, List.append_nil]
    rintro ⟨-, -, -, absent⟩
    exact absent already
  · rename_i absent
    rw [heard_announceJoined toldSeated _ _ _ nodup, heardSeated]
    congr 1
    refine if_congr ?_ rfl rfl
    simp only [existing, List.mem_filter, FiniteSet.mem_toList, ne_eq,
      decide_not, Bool.not_eq_true', decide_eq_false_iff_not]
    constructor
    · rintro ⟨⟨member, other⟩, same⟩
      exact ⟨same, other, member, absent⟩
    · rintro ⟨same, other, member, -⟩
      exact ⟨⟨member, other⟩, same⟩

/-- The one that enters reads who is there then. -/
theorem roster_enterRoom {turn : HubTurn} {roomName : String}
    {room : HubRoom} (held : turn.core.rooms.lookup roomName = some room)
    {linkId : LinkId} {identity : IdentityHash}
    (identified : turn.core.sessionIdentity linkId = some identity) :
    ∃ after, (turn.seatMember roomName linkId
        identity).core.rooms.lookup roomName = some after ∧
      ∀ known, known ∈ identity :: (HubCore.rosterIdentities
          (turn.seatMember roomName linkId identity).core after).filter (· ≠ identity) ↔
        (turn.enterRoom roomName linkId identity).core.roll.present roomName
          known := by
  obtain ⟨seated, -⟩ := seated_seatMember held linkId identity
  obtain ⟨after, afterHeld, inside⟩ :=
    (seated.members roomName linkId).mpr (Or.inr ⟨rfl, rfl⟩)
  refine ⟨after, afterHeld, fun known => ?_⟩
  have presentIff :
      (turn.enterRoom roomName linkId identity).core.roll.present roomName
          known ↔
        known ∈ HubCore.rosterIdentities
          (turn.seatMember roomName linkId identity).core after := by
    rw [HubCore.mem_rosterIdentities, enterRoom_core]
    constructor
    · rintro ⟨link, ⟨found, foundHeld, member⟩, proved⟩
      have equal : found = after :=
        Option.some.inj (foundHeld.symm.trans afterHeld)
      exact ⟨link, equal ▸ member, proved⟩
    · rintro ⟨link, member, proved⟩
      exact ⟨link, ⟨after, afterHeld, member⟩, proved⟩
  rw [presentIff, List.mem_cons, List.mem_filter]
  constructor
  · rintro (rfl | ⟨listed, -⟩)
    · rw [HubCore.mem_rosterIdentities]
      exact ⟨linkId, inside, (seated.identities linkId).trans identified⟩
    · exact listed
  · intro listed
    by_cases same : known = identity
    · exact Or.inl same
    · exact Or.inr ⟨listed, by simpa using same⟩

end HubTurn

end Ratspeak
