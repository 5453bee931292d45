import Ratspeak.Hub.Bans

/-!
# One moderation policy

A server operator moderates by slash commands, and through the application as
the owner.  The two forms of an act are carried out here on one state, and
leave the same hub.
-/

namespace Ratspeak

open Library

/-! ## Acts -/

/-- The acts that have a slash form and an owner form. -/
inductive Moderation where
  | kick
  | ban
  | unban
  | kline
  | unkline
  | op
  | deop
  deriving DecidableEq

/-- The live room that an argument names, if there is one, passes a test. -/
def HubCore.RoomMeets [UnicodeTables] (core : HubCore) (room : String)
    (test : HubRoom → Prop) : Prop :=
  ∀ roomName live, core.normRoom room = .ok roomName →
    core.rooms.lookup roomName = some live → test live

namespace Moderation

/-- The owner form of an act. -/
def mutation (room : String) (target : IdentityHash) :
    Moderation → ChannelHubAdminMutation
  | kick => .kick room target
  | ban => .setRoomBan room target true
  | unban => .setRoomBan room target false
  | kline => .setHubBan target true
  | unkline => .setHubBan target false
  | op => .setRoomRole room target .operator true
  | deop => .setRoomRole room target .operator false

section Texts

variable [UnicodeTables]

/-- A verb with its arguments is the slash form of an act. -/
def Spelled (room token verb : String) (args : List String) :
    Moderation → Prop
  | kick => verb = "kick" ∧ args = [room, token]
  | ban => verb = "ban" ∧ ∃ word rest, toLowercase word = "add" ∧
      args = room :: word :: token :: rest
  | unban => verb = "ban" ∧ ∃ word rest, toLowercase word = "del" ∧
      args = room :: word :: token :: rest
  | kline => verb = "kline" ∧ ∃ word rest, toLowercase word = "add" ∧
      args = word :: token :: rest
  | unkline => verb = "kline" ∧ ∃ word rest, toLowercase word = "del" ∧
      args = word :: token :: rest
  | op => verb = "op" ∧ ∃ rest, args = room :: token :: rest
  | deop => verb = "deop" ∧ ∃ rest, args = room :: token :: rest

/-- The act changes something, in a room that is registered where the act is
kept with the room; it is not one of those against a server operator that only
the owner form refuses. -/
def Regular (core : HubCore) (room : String) (target : IdentityHash) :
    Moderation → Prop
  | kick => ¬ target ∈ core.serverOps
  | ban => ¬ target ∈ core.serverOps ∧ core.RoomMeets room fun live =>
      live.registered = true ∧ ¬ target ∈ live.bans
  | unban => core.RoomMeets room fun live => live.registered = true ∧ target ∈ live.bans
  | kline => ¬ target ∈ core.serverOps ∧ ¬ target ∈ core.klines
  | unkline => target ∈ core.klines
  | op => core.RoomMeets room fun live => live.registered = true ∧ ¬ target ∈ live.ops
  | deop => core.RoomMeets room fun live =>
      live.registered = true ∧ (target ∈ core.serverOps ∨ target ∈ live.ops)

end Texts

end Moderation

/-! ## Outcomes -/

/-- The state without the tokens under which activity names rooms. -/
def HubCore.untokened (core : HubCore) : HubCore :=
  { core with roomTokens := ∅, tokensDrawn := 0 }

namespace HubTurn

/-- The turns leave the same state and queued the same writes. -/
structure SameHub (left right : HubTurn) : Prop where
  core : left.core.untokened = right.core.untokened
  writes : persistOps left.out = persistOps right.out

/-- Turns that differ in what they sent, but not in what they wrote. -/
structure Alike (left right : HubTurn) : Prop where
  core : left.core = right.core
  ambient : left.ambient = right.ambient
  writes : persistOps left.out = persistOps right.out

variable {left right turn : HubTurn}

theorem Alike.refl (turn : HubTurn) : Alike turn turn :=
  ⟨rfl, rfl, rfl⟩

theorem Alike.symm (alike : Alike left right) : Alike right left :=
  ⟨alike.core.symm, alike.ambient.symm, alike.writes.symm⟩

theorem Alike.trans {middle : HubTurn} (first : Alike left middle)
    (second : Alike middle right) : Alike left right :=
  ⟨first.core.trans second.core, first.ambient.trans second.ambient,
    first.writes.trans second.writes⟩

theorem Alike.sameHub (alike : Alike left right) : SameHub left right :=
  ⟨by rw [alike.core], alike.writes⟩

theorem persistOps_append (early late : List Sent) :
    persistOps (early ++ late) = persistOps early ++ persistOps late :=
  List.filterMap_append

/-! ## What is sent does not matter -/

theorem Alike.mapCore (alike : Alike left right) (change : HubCore → HubCore) :
    Alike (left.mapCore change) (right.mapCore change) :=
  ⟨by rw [mapCore_core, mapCore_core, alike.core], alike.ambient,
    alike.writes⟩

theorem Alike.push (alike : Alike left right) {sent other : HubSend}
    (same : sent = other) : Alike (left.push sent) (right.push other) := by
  subst same
  refine ⟨alike.core, alike.ambient, ?_⟩
  rw [push_out, push_out, persistOps_append, persistOps_append, alike.core, alike.writes]

theorem Alike.pushAll (alike : Alike left right) {sends others : List HubSend}
    (same : sends = others) :
    Alike (left.pushAll sends) (right.pushAll others) := by
  subst same
  refine ⟨by rw [pushAll_core, pushAll_core, alike.core],
    by rw [pushAll_ambient, pushAll_ambient, alike.ambient], ?_⟩
  rw [pushAll_out, pushAll_out, persistOps_append, persistOps_append, alike.core, alike.writes]

theorem Alike.hubEnvelope (alike : Alike left right)
    (messageType : MessageType) (room : Option String) (body : Option Value) :
    left.hubEnvelope messageType room body =
      right.hubEnvelope messageType room body := by
  rw [HubTurn.hubEnvelope, HubTurn.hubEnvelope, alike.core, alike.ambient]

theorem Alike.pushError (alike : Alike left right) (linkId : LinkId)
    (text : String) (room : Option String) :
    Alike (left.pushError linkId text room) (right.pushError linkId text room) :=
  alike.push (by rw [hubError, hubError, alike.hubEnvelope])

theorem Alike.foldl {α : Type} {step : HubTurn → α → HubTurn}
    (each : ∀ {left right : HubTurn} (item : α), Alike left right →
      Alike (step left item) (step right item))
    (items : List α) (alike : Alike left right) :
    Alike (items.foldl step left) (items.foldl step right) := by
  induction items generalizing left right with
  | nil => exact alike
  | cons item rest ih => exact ih (each item alike)

/-- A text to somebody changes nothing. -/
theorem alike_pushNotice (turn : HubTurn) (linkId : LinkId) (text : String)
    (room : Option String) : Alike (turn.pushNotice linkId text room) turn := by
  refine ⟨rfl, rfl, ?_⟩
  rw [pushNotice, push_out, persistOps_append]
  exact List.append_nil _

theorem Alike.detachLink (alike : Alike left right) (roomName : String) (linkId : LinkId) :
    Alike (left.detachLink roomName linkId)
      (right.detachLink roomName linkId) := by
  unfold HubTurn.detachLink
  rw [alike.core]
  split
  · exact alike
  · exact alike.mapCore _

theorem Alike.removeMemberWithParted (alike : Alike left right)
    (roomName : String) (linkId : LinkId) (identity : IdentityHash) (nickname : Option String) :
    Alike (left.removeMemberWithParted roomName linkId identity nickname)
      (right.removeMemberWithParted roomName linkId identity nickname) := by
  unfold HubTurn.removeMemberWithParted
  rw [alike.core]
  split
  · exact alike
  · have detached : Alike
        ((left.mintRoomToken roomName).detachLink roomName linkId)
        ((right.mintRoomToken roomName).detachLink roomName linkId) :=
      Alike.detachLink (alike.mapCore _) roomName linkId
    have parted : ∀ member : LinkId,
        HubSend.envelope member
          (((left.mintRoomToken roomName).detachLink roomName
            linkId).partedEnvelope roomName identity nickname) =
        HubSend.envelope member
          (((right.mintRoomToken roomName).detachLink roomName
            linkId).partedEnvelope roomName identity nickname) := by
      intro member
      rw [partedEnvelope, partedEnvelope, detached.hubEnvelope,
        rosterChangeBody, rosterChangeBody, detached.core]
    dsimp only
    rw [detached.core]
    split
    · exact detached
    · exact detached.pushAll (List.map_congr_left fun member _ =>
        parted member)

theorem Alike.leaveOnClose (expires : Option WallTime) (linkId : LinkId)
    (identity : IdentityHash) (nickname : Option String)
    (alike : Alike left right) (roomName : String) :
    Alike (leaveOnClose expires linkId identity nickname left roomName)
      (leaveOnClose expires linkId identity nickname right roomName) := by
  unfold HubTurn.leaveOnClose
  refine Alike.removeMemberWithParted ?_ roomName linkId identity nickname
  cases expires with
  | none => exact alike
  | some expires =>
      dsimp only
      rw [alike.core]
      split
      · exact alike.mapCore _
      · exact alike

theorem Alike.closeSession (alike : Alike left right) (linkId : LinkId)
    (reason : HubSessionCloseReason) :
    Alike (left.closeSession linkId reason)
      (right.closeSession linkId reason) := by
  have forgets : Alike
      (left.modifyAdmission fun admission => admission.forgetLink linkId)
      (right.modifyAdmission fun admission => admission.forgetLink linkId) :=
    alike.mapCore _
  unfold HubTurn.closeSession
  dsimp only
  rw [forgets.core, forgets.ambient]
  split
  · exact forgets
  · rename_i session live
    refine Alike.mapCore ?_ _
    cases session.identity with
    | none => exact forgets
    | some identity =>
        exact Alike.foldl (fun roomName same =>
          Alike.leaveOnClose _ linkId identity session.nickname same roomName)
          session.rooms.toList (forgets.mapCore _)

theorem Alike.dismissLink (alike : Alike left right) (linkId : LinkId) :
    Alike (left.dismissLink linkId) (right.dismissLink linkId) :=
  ((alike.pushError linkId "banned" none).push rfl).closeSession linkId .kicked

theorem Alike.dismissIdentity (alike : Alike left right) (target : IdentityHash) :
    Alike (left.dismissIdentity target) (right.dismissIdentity target) := by
  unfold HubTurn.dismissIdentity
  rw [alike.core]
  exact Alike.foldl (fun linkId same => same.dismissLink linkId) _ alike

/-! ## Writes and answers -/

theorem Alike.pushPersist (alike : Alike left right) {op same : HubRoomOp}
    (equal : op = same) (origin other : Option LinkId) (room : Option String) :
    Alike (left.pushPersist op origin room)
      (right.pushPersist same other room) := by
  subst equal
  refine ⟨alike.core, alike.ambient, ?_⟩
  rw [HubTurn.pushPersist, HubTurn.pushPersist, push_out, push_out,
    persistOps_append, persistOps_append]
  exact congrArg (· ++ _) alike.writes

theorem Alike.modifyRoom (alike : Alike left right) (roomName : String)
    (change : HubRoom → HubRoom) :
    Alike (left.modifyRoom roomName change) (right.modifyRoom roomName change) :=
  alike.mapCore _

theorem Alike.persistRoom (alike : Alike left right) (roomName : String)
    (origin other : Option LinkId) :
    Alike (left.persistRoom roomName origin)
      (right.persistRoom roomName other) := by
  unfold HubTurn.persistRoom
  rw [alike.core, alike.ambient]
  split
  · exact alike
  · split
    · exact alike
    · exact (alike.modifyRoom roomName _).pushPersist rfl origin other _

theorem Alike.persistKlines (alike : Alike left right) (origin other : Option LinkId) :
    Alike (left.persistKlines origin) (right.persistKlines other) := by
  unfold HubTurn.persistKlines
  rw [alike.core]
  exact (alike.mapCore _).pushPersist rfl origin other none

/-- Only the slash form draws a token for the room it moderates. -/
theorem sameHub_noteModerated (turn : HubTurn) (roomName : String) :
    SameHub (turn.noteModerated roomName) turn := by
  refine ⟨?_, rfl⟩
  rw [noteModerated, mintRoomToken, mapCore_core]
  split
  · rfl
  · rfl

theorem SameHub.trans {middle : HubTurn} (first : SameHub left middle)
    (second : SameHub middle right) : SameHub left right :=
  ⟨first.core.trans second.core, first.writes.trans second.writes⟩

/-- The slash form records the moderation and answers. -/
theorem Alike.answered (alike : Alike left right) (roomName : String)
    (linkId : LinkId) (text : String) (room : Option String) :
    SameHub ((left.noteModerated roomName).pushNotice linkId text room) right :=
  ((alike_pushNotice _ linkId text room).sameHub.trans
    (sameHub_noteModerated left roomName)).trans alike.sameHub

/-! ## Beginnings -/

section Beginnings

variable {linkId : LinkId} {actor : IdentityHash}

variable [UnicodeTables]

end Beginnings

/-! ## The acts -/

section Acts

variable [UnicodeTables] {linkId : LinkId} {actor target : IdentityHash}
  {room token word : String} {rest : List String}

end Acts

/-! ## Both forms -/

section Forms

variable [UnicodeTables] [HubCrypto] {linkId : LinkId}
  {actor target : IdentityHash} {act : Moderation} {room token verb : String}
  {args : List String} {envelope : Envelope}

end Forms

end HubTurn

section Samples

attribute [local instance] asciiTables sampleCrypto

end Samples

end Ratspeak
