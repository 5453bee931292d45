import Ratspeak.Hub.Coherence

/-!
# What the moves of links leave alone

Entering and leaving rooms changes sessions, rooms and the index of
identities; the lists of the hub, its configuration and its bookkeeping of
writes stay.  What is sent on the way are rosters, answers and writes: none of
it is a message that somebody sent into a room.
-/

namespace Ratspeak

open Library

/-! ## Cores -/

namespace HubCore

/-- The cores agree on everything but who is where. -/
def Reseated (before after : HubCore) : Prop :=
  ∃ (sessions : FiniteMap LinkId HubSession)
      (rooms : FiniteMap String HubRoom)
      (byIdentity : FiniteMap IdentityHash LinkId)
      (admission : AdmissionState) (roomTokens : FiniteMap String Nat)
      (tokensDrawn : Nat),
    after =
      { before with
        sessions := sessions
        rooms := rooms
        byIdentity := byIdentity
        admission := admission
        roomTokens := roomTokens
        tokensDrawn := tokensDrawn }

theorem Reseated.refl (core : HubCore) : Reseated core core :=
  ⟨_, _, _, _, _, _, rfl⟩

theorem Reseated.trans {first second third : HubCore}
    (one : Reseated first second) (two : Reseated second third) :
    Reseated first third := by
  obtain ⟨_, _, _, _, _, _, rfl⟩ := one
  obtain ⟨_, _, _, _, _, _, rfl⟩ := two
  exact ⟨_, _, _, _, _, _, rfl⟩

theorem Housed.reseated {before after : HubCore}
    (housed : Housed before after) : Reseated before after := by
  obtain ⟨_, _, _, rfl⟩ := housed
  exact ⟨_, _, _, _, _, _, rfl⟩

theorem Reseated.klines {before after : HubCore}
    (reseated : Reseated before after) : after.klines = before.klines := by
  obtain ⟨_, _, _, _, _, _, rfl⟩ := reseated
  rfl

end HubCore

/-! ## Sends -/

/-- The send is no message that somebody sent into a room. -/
def Sent.Administrative (sent : Sent) : Prop :=
  match sent.send with
  | .envelope _ content =>
      ∀ roomName, ¬ content.isRoomMessage sent.core.hubHash roomName
  | _ => True

theorem HubSend.Plain.administrative {send : HubSend} {core : HubCore}
    (plain : HubSend.Plain core.hubHash send) :
    Sent.Administrative ⟨send, core⟩ := by
  cases send with
  | envelope target content => exact plain.2
  | resource target content payload => trivial
  | close target => trivial
  | persist persist => trivial

theorem administrative_of_roster {envelope : Envelope}
    (roster : envelope.isRoster = true) (target : LinkId) (core : HubCore) :
    Sent.Administrative ⟨.envelope target envelope, core⟩ := by
  rintro roomName ⟨-, kind⟩
  rcases kind with kind | kind | ⟨kind, -⟩
  · simp [Envelope.isRoster, kind] at roster
  · simp [Envelope.isRoster, kind] at roster
  · simp [Envelope.isRoster, kind] at roster

namespace HubTurn

/-- The turn went on, and every send it queued has the property. -/
def Sends (holds : Sent → Prop) (before after : HubTurn) : Prop :=
  ∃ more : List Sent, after.out = before.out ++ more ∧ ∀ sent ∈ more, holds sent

variable {holds : Sent → Prop}

theorem sends_of_eq {before after : HubTurn} (same : after.out = before.out) :
    Sends holds before after :=
  ⟨[], by rw [same, List.append_nil], by simp⟩

theorem Sends.trans {first second third : HubTurn}
    (one : Sends holds first second) (two : Sends holds second third) :
    Sends holds first third := by
  obtain ⟨sends, out, each⟩ := one
  obtain ⟨more, moreOut, moreEach⟩ := two
  refine ⟨sends ++ more, by rw [moreOut, out, List.append_assoc], ?_⟩
  intro sent member
  rcases List.mem_append.mp member with early | late
  · exact each sent early
  · exact moreEach sent late

theorem Sends.mono {weaker : Sent → Prop} {before after : HubTurn}
    (sends : Sends holds before after) (weaken : ∀ sent, holds sent → weaker sent) :
    Sends weaker before after := by
  obtain ⟨more, out, each⟩ := sends
  exact ⟨more, out, fun sent member => weaken sent (each sent member)⟩

theorem sends_pushAll (turn : HubTurn) {sends : List HubSend}
    (each : ∀ send ∈ sends, holds ⟨send, turn.core⟩) :
    Sends holds turn (turn.pushAll sends) := by
  refine ⟨_, pushAll_out turn sends, fun sent member => ?_⟩
  obtain ⟨send, queued, rfl⟩ := List.mem_map.mp member
  exact each send queued

theorem sends_push {turn : HubTurn} {send : HubSend}
    (one : holds ⟨send, turn.core⟩) : Sends holds turn (turn.push send) :=
  ⟨[⟨send, turn.core⟩], rfl, fun sent member => by
    rw [List.mem_singleton] at member
    exact member ▸ one⟩

theorem Sends.all {before after : HubTurn} (sends : Sends holds before after)
    (earlier : ∀ sent ∈ before.out, holds sent) :
    ∀ sent ∈ after.out, holds sent := by
  obtain ⟨more, out, each⟩ := sends
  intro sent member
  rw [out] at member
  rcases List.mem_append.mp member with early | late
  · exact earlier sent early
  · exact each sent late

/-- Links changed their places, and nothing else happened. -/
structure Reseats (before after : HubTurn) : Prop where
  core : HubCore.Reseated before.core after.core
  ambient : after.ambient = before.ambient
  sends : Sends Sent.Administrative before after

theorem Reseats.refl (turn : HubTurn) : Reseats turn turn :=
  ⟨.refl turn.core, rfl, sends_of_eq rfl⟩

theorem Reseats.trans {first second third : HubTurn}
    (one : Reseats first second) (two : Reseats second third) :
    Reseats first third :=
  ⟨one.core.trans two.core, two.ambient.trans one.ambient, one.sends.trans two.sends⟩

theorem reseats_of_core {before after : HubTurn}
    (core : HubCore.Reseated before.core after.core) (ambient : after.ambient = before.ambient)
    (out : after.out = before.out) : Reseats before after :=
  ⟨core, ambient, sends_of_eq out⟩

theorem reseats_foldl {α : Type} {step : HubTurn → α → HubTurn}
    (each : ∀ turn item, Reseats turn (step turn item)) (items : List α)
    (turn : HubTurn) : Reseats turn (items.foldl step turn) := by
  induction items generalizing turn with
  | nil => exact .refl turn
  | cons item rest ih =>
      have first : Reseats turn (step turn item) := each turn item
      exact first.trans (ih (step turn item))

theorem reseats_push {turn : HubTurn} {send : HubSend}
    (administrative : Sent.Administrative ⟨send, turn.core⟩) :
    Reseats turn (turn.push send) :=
  ⟨.refl turn.core, rfl, sends_push administrative⟩

theorem reseats_pushAll (turn : HubTurn) {sends : List HubSend}
    (administrative : ∀ send ∈ sends, Sent.Administrative ⟨send, turn.core⟩) :
    Reseats turn (turn.pushAll sends) := by
  refine ⟨?_, pushAll_ambient turn sends, sends_pushAll turn administrative⟩
  rw [pushAll_core]
  exact .refl turn.core

theorem reseats_modifySession (turn : HubTurn) (linkId : LinkId)
    (change : HubSession → HubSession) :
    Reseats turn (turn.modifySession linkId change) :=
  reseats_of_core ⟨_, _, _, _, _, _, rfl⟩ rfl rfl

theorem reseats_modifyRoom (turn : HubTurn) (roomName : String) (change : HubRoom → HubRoom) :
    Reseats turn (turn.modifyRoom roomName change) :=
  reseats_of_core ⟨_, _, _, _, _, _, rfl⟩ rfl rfl

theorem reseats_pushError (turn : HubTurn) (linkId : LinkId) (text : String)
    (room : Option String) : Reseats turn (turn.pushError linkId text room) :=
  reseats_push (turn.plain_hubError linkId text room).administrative

/-! ## Leaving -/

theorem reseats_mintRoomToken (turn : HubTurn) (roomName : String) :
    Reseats turn (turn.mintRoomToken roomName) :=
  reseats_of_core (turn.housed_mintRoomToken roomName).reseated rfl
    (turn.mintRoomToken_out roomName)

theorem reseats_detachLink (turn : HubTurn) (roomName : String)
    (linkId : LinkId) : Reseats turn (turn.detachLink roomName linkId) := by
  refine reseats_of_core (turn.housed_detachLink roomName linkId).reseated ?_
    (turn.detachLink_out roomName linkId)
  unfold detachLink
  split
  · rfl
  · rfl

theorem reseats_removeMemberWithParted (turn : HubTurn) (roomName : String)
    (linkId : LinkId) (identity : IdentityHash) (nickname : Option String) :
    Reseats turn
      (turn.removeMemberWithParted roomName linkId identity nickname) := by
  unfold removeMemberWithParted
  split
  · exact .refl turn
  · have detached : Reseats turn
        ((turn.mintRoomToken roomName).detachLink roomName linkId) :=
      (turn.reseats_mintRoomToken roomName).trans (reseats_detachLink _ roomName linkId)
    dsimp only
    split
    · exact detached
    · refine detached.trans (reseats_pushAll _ fun send member => ?_)
      obtain ⟨target, -, rfl⟩ := List.mem_map.mp member
      exact administrative_of_roster rfl _ _

theorem reseats_ejectLink (roomName : String) (target : IdentityHash)
    (reason : String) (turn : HubTurn) (linkId : LinkId) :
    Reseats turn (ejectLink roomName target reason turn linkId) :=
  ((turn.reseats_modifySession linkId _).trans
    (reseats_removeMemberWithParted _ roomName linkId target _)).trans
    (reseats_pushError _ linkId reason (some roomName))

theorem reseats_ejectIdentityFromRoom (turn : HubTurn) (roomName : String)
    (target : IdentityHash) (reason : String) :
    Reseats turn (turn.ejectIdentityFromRoom roomName target reason) :=
  (turn.reseats_modifyRoom roomName _).trans
    (reseats_foldl (reseats_ejectLink roomName target reason) _ _)

theorem reseats_leaveOnClose (expires : Option WallTime) (linkId : LinkId)
    (identity : IdentityHash) (nickname : Option String) (turn : HubTurn) (roomName : String) :
    Reseats turn
      (leaveOnClose expires linkId identity nickname turn roomName) := by
  unfold leaveOnClose
  extract_lets eligible leased
  have leases : Reseats turn leased := by
    simp only [leased]
    split
    · exact .refl turn
    · split
      · exact turn.reseats_modifyRoom roomName _
      · exact .refl turn
  exact leases.trans (reseats_removeMemberWithParted leased _ _ _ _)

theorem reseats_closeSession (turn : HubTurn) (linkId : LinkId)
    (reason : HubSessionCloseReason) :
    Reseats turn (turn.closeSession linkId reason) := by
  unfold closeSession
  extract_lets forgetting grace expires
  have forgets : Reseats turn forgetting :=
    reseats_of_core ⟨_, _, _, _, _, _, rfl⟩ rfl rfl
  refine forgets.trans ?_
  split
  · exact .refl forgetting
  · rename_i session live
    have erases : ∀ departed : HubTurn, Reseats departed
        (departed.mapCore fun core =>
          { core with sessions := core.sessions.erase linkId }) :=
      fun departed => reseats_of_core ⟨_, _, _, _, _, _, rfl⟩ rfl rfl
    dsimp only
    split
    · exact erases forgetting
    · rename_i identity proved
      obtain ⟨byIdentity, unindexed, -⟩ :=
        forgetting.unindexLink_eq identity linkId
      have unindexes : Reseats forgetting
          (forgetting.unindexLink identity linkId) := by
        rw [unindexed]
        exact reseats_of_core ⟨_, _, _, _, _, _, rfl⟩ rfl rfl
      exact (unindexes.trans (reseats_foldl
        (reseats_leaveOnClose expires linkId identity session.nickname)
        session.rooms.toList _)).trans (erases _)

theorem reseats_dismissLink (turn : HubTurn) (linkId : LinkId) :
    Reseats turn (turn.dismissLink linkId) := by
  have told : Reseats turn (turn.pushError linkId "banned" none) :=
    turn.reseats_pushError linkId "banned" none
  have closing : Reseats (turn.pushError linkId "banned" none)
      ((turn.pushError linkId "banned" none).push (.close linkId)) :=
    reseats_push trivial
  exact (told.trans closing).trans (reseats_closeSession _ linkId .kicked)

theorem reseats_leaveRoom (turn : HubTurn) (roomName : String)
    (linkId : LinkId) (identity : IdentityHash) :
    Reseats turn (turn.leaveRoom roomName linkId identity) :=
  ((turn.reseats_modifySession linkId _).trans
    (reseats_removeMemberWithParted _ roomName linkId identity _)).trans
    (reseats_push (administrative_of_roster rfl _ _))

/-! ## Entering -/

theorem reseats_persistRoom (turn : HubTurn) (roomName : String) (origin : Option LinkId) :
    Reseats turn (turn.persistRoom roomName origin) := by
  unfold persistRoom
  split
  · exact .refl turn
  · split
    · exact .refl turn
    · exact (turn.reseats_modifyRoom roomName _).trans (reseats_push trivial)

theorem reseats_enterRoom (turn : HubTurn) (roomName : String)
    (linkId : LinkId) (identity : IdentityHash) :
    Reseats turn (turn.enterRoom roomName linkId identity) := by
  have seats : Reseats turn (turn.seatMember roomName linkId identity) := by
    unfold seatMember
    extract_lets consumedInvite seated persisted
    have enters : Reseats turn seated :=
      (turn.reseats_modifyRoom roomName _).trans (reseats_modifyRoom _ roomName _)
    have stores : Reseats seated persisted := by
      simp only [persisted]
      split
      · exact seated.reseats_persistRoom roomName (some linkId)
      · exact .refl seated
    exact (enters.trans stores).trans (persisted.reseats_modifySession linkId _)
  have confirms : ∀ entered : HubTurn, Reseats entered
      (entered.confirmJoined roomName linkId identity) := by
    intro entered
    unfold confirmJoined
    split
    · split
      · exact .refl entered
      · refine reseats_pushAll entered fun send member => ?_
        obtain ⟨chunk, -, rfl⟩ := List.mem_map.mp member
        exact administrative_of_roster rfl _ _
    · exact reseats_push (administrative_of_roster rfl _ _)
  unfold enterRoom
  extract_lets room alreadyPresent existingMembers seated announced
  have announces : Reseats seated announced := by
    simp only [announced]
    split
    · exact .refl seated
    · refine reseats_pushAll seated fun send member => ?_
      obtain ⟨target, -, rfl⟩ := List.mem_map.mp member
      exact administrative_of_roster rfl _ _
  exact (seats.trans announces).trans (confirms announced)

/-! ## Sessions that end -/

theorem closeSession_lookup (turn : HubTurn) (linkId link : LinkId)
    (reason : HubSessionCloseReason) :
    (turn.closeSession linkId reason).core.sessions.lookup link =
      if link = linkId then none else turn.core.sessions.lookup link := by
  unfold closeSession
  extract_lets forgetting grace expires
  change _ = if link = linkId then none
    else forgetting.core.sessions.lookup link
  split
  · rename_i gone
    split
    · rename_i same
      rw [same, gone]
    · rfl
  · rename_i session live
    dsimp only
    split
    · rw [mapCore_core, FiniteMap.lookup_erase_ite]
    · rename_i identity proved
      rw [mapCore_core, FiniteMap.lookup_erase_ite, leaveRooms_sessions]
      obtain ⟨byIdentity, unindexed, -⟩ :=
        forgetting.unindexLink_eq identity linkId
      rw [unindexed]
      rfl

theorem dismissLinks_lookup (links : List LinkId) (turn : HubTurn) (link : LinkId) :
    (links.foldl dismissLink turn).core.sessions.lookup link =
      if link ∈ links then none else turn.core.sessions.lookup link := by
  induction links generalizing turn with
  | nil => simp
  | cons linkId rest ih =>
      have dismissed : (turn.dismissLink linkId).core.sessions.lookup link =
          if link = linkId then none else turn.core.sessions.lookup link :=
        closeSession_lookup _ linkId link .kicked
      rw [List.foldl_cons, ih, dismissed]
      by_cases same : link = linkId
      · simp [same]
      · simp [same]

/-- Nobody is left of an identity whose sessions are all closed. -/
theorem sessionIdentity_dismissIdentity (turn : HubTurn)
    (target : IdentityHash) (link : LinkId) :
    (turn.dismissIdentity target).core.sessionIdentity link =
      if turn.core.sessionIdentity link = some target then none
      else turn.core.sessionIdentity link := by
  have found : (turn.dismissIdentity target).core.sessions.lookup link =
      if link ∈ turn.core.linksForIdentity target then none
      else turn.core.sessions.lookup link :=
    dismissLinks_lookup _ turn link
  rw [HubCore.sessionIdentity, found]
  simp only [HubCore.mem_linksForIdentity]
  by_cases targeted : turn.core.sessionIdentity link = some target
  · rw [if_pos targeted, if_pos targeted]
    rfl
  · rw [if_neg targeted, if_neg targeted]
    rfl

end HubTurn

end Ratspeak
