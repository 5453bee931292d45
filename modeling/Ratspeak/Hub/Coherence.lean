import Ratspeak.Hub.Refinement
import Ratspeak.Library.Runs

/-!
# The two sides of a membership

A room lists its links, and a session lists its rooms.  The two agree in every
state that a hub reaches, and every member is identified and welcomed, unless
a link that has joined a room is identified as an identity that is banned from
the hub: such a link is dropped without leaving its rooms.
-/

namespace Ratspeak

open Library

/-! ## The events of a link -/

theorem HubTurn.roll_openSession (turn : HubTurn) (linkId : LinkId) :
    (turn.openSession linkId).core.roll =
      turn.core.roll.apply (.establish linkId) := by
  unfold openSession
  cases live : turn.core.sessions.lookup linkId with
  | some session =>
      refine Roll.ext ?_ rfl rfl rfl rfl rfl rfl
      funext other
      simp only [HubCore.roll, Roll.apply, eq_iff_iff]
      constructor
      · exact Or.inr
      · rintro (rfl | known)
        · simp [live]
        · exact known
  | none =>
      refine Roll.ext ?_ ?_ ?_ ?_ rfl rfl rfl
      · funext other
        simp only [HubCore.roll, Roll.apply, mapCore_core, FiniteMap.lookup_insert_ite]
        by_cases same : other = linkId
        · simp [same]
        · simp [same]
      · funext other
        simp only [HubCore.roll, Roll.apply, mapCore_core,
          HubCore.sessionIdentity, FiniteMap.lookup_insert_ite]
        by_cases same : other = linkId
        · subst same
          simp [live, HubSession.new]
        · simp [same]
      · funext other
        simp only [HubCore.roll, Roll.apply, mapCore_core, FiniteMap.lookup_insert_ite]
        by_cases same : other = linkId
        · subst same
          simp [live, HubSession.new]
        · simp [same]
      · funext other room
        simp only [HubCore.roll, Roll.apply, mapCore_core, FiniteMap.lookup_insert_ite]
        by_cases same : other = linkId
        · subst same
          simp [live, HubSession.new]
        · simp [same]

theorem HubTurn.openSession_isSome (turn : HubTurn) (linkId : LinkId) :
    ∃ session, (turn.openSession linkId).core.sessions.lookup linkId =
      some session := by
  unfold openSession
  cases live : turn.core.sessions.lookup linkId with
  | some session => exact ⟨session, live⟩
  | none => simp

/-- A link that proves an identity is live and bound to it. -/
theorem HubTurn.roll_bindIdentity (turn : HubTurn) (linkId : LinkId) (identity : IdentityHash) :
    (turn.bindIdentity linkId identity).core.roll =
      turn.core.roll.apply (.bind linkId identity) := by
  obtain ⟨session, live⟩ := turn.openSession_isSome linkId
  have opened := turn.roll_openSession linkId
  have bound : (turn.bindIdentity linkId identity).core.roll =
      (turn.openSession linkId).core.roll.apply (.bind linkId identity) := by
    refine Roll.ext ?_ ?_ ?_ ?_ rfl rfl ?_
    · funext other
      simp only [bindIdentity, HubCore.roll, Roll.apply, mapCore_core,
        modifySession, FiniteMap.lookup_adjust]
      by_cases same : other = linkId
      · simp [same, live]
      · simp [same]
    · funext other
      simp only [bindIdentity, HubCore.roll, Roll.apply, mapCore_core,
        modifySession, HubCore.sessionIdentity, FiniteMap.lookup_adjust]
      by_cases same : other = linkId
      · subst same
        simp [live]
      · simp [same]
    · funext other
      simp only [bindIdentity, HubCore.roll, Roll.apply, mapCore_core,
        modifySession, FiniteMap.lookup_adjust]
      by_cases same : other = linkId
      · subst same
        simp [live]
      · simp [same]
    · funext other room
      simp only [bindIdentity, HubCore.roll, Roll.apply, mapCore_core,
        modifySession, FiniteMap.lookup_adjust]
      by_cases same : other = linkId
      · subst same
        simp [live]
      · simp [same]
    · funext known
      simp only [bindIdentity, HubCore.roll, Roll.apply, mapCore_core,
        modifySession, FiniteMap.lookup_insert_ite]
      by_cases same : known = identity
      · subst same
        simp
      · simp [same]
  rw [bound, opened]
  refine Roll.ext ?_ rfl rfl rfl rfl rfl rfl
  funext other
  simp only [Roll.apply, eq_iff_iff]
  tauto

theorem HubTurn.roll_refuseLink (turn : HubTurn) (linkId : LinkId) :
    (turn.refuseLink linkId).core.roll =
      turn.core.roll.apply (.refuse linkId) := by
  refine Roll.ext ?_ ?_ ?_ ?_ rfl rfl rfl
  · funext other
    simp only [refuseLink, HubCore.roll, Roll.apply, mapCore_core, pushError,
      push_core, FiniteMap.lookup_erase_ite]
    by_cases same : other = linkId
    · simp [same]
    · simp [same]
  · funext other
    simp only [refuseLink, HubCore.roll, Roll.apply, mapCore_core, pushError,
      push_core, HubCore.sessionIdentity, FiniteMap.lookup_erase_ite]
    by_cases same : other = linkId
    · simp [same]
    · simp [same]
  · funext other
    simp only [refuseLink, HubCore.roll, Roll.apply, mapCore_core, pushError,
      push_core, FiniteMap.lookup_erase_ite]
    by_cases same : other = linkId
    · simp [same]
    · simp [same]
  · funext other room
    simp only [refuseLink, HubCore.roll, Roll.apply, mapCore_core, pushError,
      push_core, FiniteMap.lookup_erase_ite]
    by_cases same : other = linkId
    · simp [same]
    · simp [same]

/-! ## Steps -/

section Steps

variable [UnicodeTables] [HubCrypto]

theorem step_linkEstablished {core : HubCore} {input : HubInput}
    {link : LinkId} (event : input.event = .linkEstablished link) :
    (core.step input).roll = core.roll.apply (.establish link) := by
  rw [HubCore.step, HubCore.handle, event]
  exact (core.turn input.ambient).roll_openSession link

theorem step_linkIdentified_bound {core : HubCore} {input : HubInput}
    {link : LinkId} {identity : IdentityHash}
    (event : input.event = .linkIdentified link identity) (welcome : ¬ identity ∈ core.klines) :
    (core.step input).roll = core.roll.apply (.bind link identity) := by
  have bound : (core.turn input.ambient).onLinkIdentified link identity =
      (core.turn input.ambient).bindIdentity link identity := if_neg welcome
  rw [HubCore.step, HubCore.handle, event]
  simp only [HubTurn.handle, bound]
  exact (core.turn input.ambient).roll_bindIdentity link identity

theorem step_linkIdentified_refused {core : HubCore} {input : HubInput}
    {link : LinkId} {identity : IdentityHash}
    (event : input.event = .linkIdentified link identity) (klined : identity ∈ core.klines) :
    (core.step input).roll = core.roll.apply (.refuse link) := by
  have refused : (core.turn input.ambient).onLinkIdentified link identity =
      (core.turn input.ambient).refuseLink link := if_pos klined
  rw [HubCore.step, HubCore.handle, event]
  simp only [HubTurn.handle, refused]
  exact (core.turn input.ambient).roll_refuseLink link

/-- What every operation keeps that the event may carry out, the event
keeps. -/
theorem roll_step_induct {invariant : HubRoll → Prop} {core : HubCore}
    {input : HubInput} (initially : invariant core.roll)
    (established : ∀ link, input.event = .linkEstablished link →
      invariant (core.roll.apply (.establish link)))
    (bound : ∀ link identity, input.event = .linkIdentified link identity →
      ¬ identity ∈ core.klines → invariant (core.roll.apply (.bind link identity)))
    (refused : ∀ link identity, input.event = .linkIdentified link identity →
      identity ∈ core.klines → invariant (core.roll.apply (.refuse link)))
    (kept : ∀ roll op, invariant roll → (core.limitsOf input).permits op →
      roll.Allows op → invariant (roll.apply op)) :
    invariant (core.step input).roll := by
  by_cases seated : ∃ link, input.event = .linkEstablished link
  · obtain ⟨link, event⟩ := seated
    rw [step_linkEstablished event]
    exact established link event
  · by_cases identified : ∃ link identity,
        input.event = .linkIdentified link identity
    · obtain ⟨link, identity, event⟩ := identified
      by_cases klined : identity ∈ core.klines
      · rw [step_linkIdentified_refused event klined]
        exact refused link identity event klined
      · rw [step_linkIdentified_bound event klined]
        exact bound link identity event klined
    · have traced := @traced_handle _ _ core input
        (fun link event => seated ⟨link, event⟩)
        fun link identity event => identified ⟨link, identity, event⟩
      exact traced.path.induct kept initially

end Steps

/-- A failed write changes nothing but what is outstanding. -/
theorem roll_notePersistFailed (core : HubCore) (op : HubRoomOp) :
    (core.notePersistFailed op).roll = core.roll := by
  have adjusted : ∀ (roomName : String) (change : HubRoom → HubRoom),
      (∀ room, (change room).members = room.members ∧ (change room).bans = room.bans) →
      HubCore.roll
          { core with rooms := core.rooms.adjust roomName change } =
        core.roll := by
    intro roomName change same
    refine Roll.ext rfl rfl rfl rfl ?_ ?_ rfl
    · funext name link
      simp only [HubCore.roll, FiniteMap.lookup_adjust]
      by_cases equal : name = roomName
      · subst equal
        cases core.rooms.lookup name with
        | none => simp
        | some room => simp [(same room).1]
      · simp [equal]
    · funext name identity
      simp only [HubCore.roll, FiniteMap.lookup_adjust]
      by_cases equal : name = roomName
      · subst equal
        cases core.rooms.lookup name with
        | none => simp
        | some room => simp [(same room).2]
      · simp [equal]
  cases op with
  | upsert row => exact adjusted _ _ fun _ => ⟨rfl, rfl⟩
  | touched roomName lastUsed => exact adjusted _ _ fun _ => ⟨rfl, rfl⟩
  | removed roomName => rfl
  | replaceKlines subjects => rfl
  | gcInvites before => rfl

theorem roll_serve [UnicodeTables] [HubCrypto] (core : HubCore) (input : ServiceInput) :
    (core.serve input).roll = (core.step input.input).roll := by
  unfold HubCore.serve
  generalize core.step input.input = after
  induction core.written input generalizing after with
  | nil => rfl
  | cons outcome rest ih =>
      rw [List.foldl_cons, ih]
      split
      · rfl
      · exact roll_notePersistFailed after outcome.1

/-! ## The start -/

/-- Grants say who may do what in a room, and nothing else of it. -/
theorem restoreGrants_eq (now : WallTime) (room : HubRoom)
    (grants : List (String × String × WallTime)) :
    ∃ ops voiced bans invited,
      grants.foldl (restoreGrant now) room =
        { room with
          ops := ops
          voiced := voiced
          bans := bans
          invited := invited } := by
  induction grants generalizing room with
  | nil => exact ⟨room.ops, room.voiced, room.bans, room.invited, rfl⟩
  | cons grant rest ih =>
      obtain ⟨ops, voiced, bans, invited, isRest⟩ :=
        ih (restoreGrant now room grant)
      refine ⟨ops, voiced, bans, invited, ?_⟩
      rw [List.foldl_cons, isRest, restoreGrant]
      split
      · rfl
      · split
        · rfl
        · split
          · rfl
          · split
            · rfl
            · split
              · rfl
              · rfl

theorem members_restoreRoom (pepperId : Bytes 8) (now : WallTime)
    (row : HubRoomRow) : (restoreRoom pepperId now row).members = ∅ := by
  rw [restoreRoom]
  obtain ⟨_, _, _, _, isRoom⟩ := restoreGrants_eq now _ row.grants
  rw [isRoom]

/-- What the room of each row that is read keeps holds of a hub that starts
from rows. -/
theorem HubCore.restore_induct [UnicodeTables] {invariant : HubCore → Prop}
    {now : WallTime} (kept : ∀ core row, invariant core →
      core.normRoom row.roomName = .ok row.roomName →
        invariant
          { core with
            rooms := core.rooms.insert row.roomName (restoreRoom core.pepperId now row) })
    {core : HubCore} (rows : List HubRoomRow) (initially : invariant core) :
    invariant (core.restore now rows) := by
  induction rows generalizing core with
  | nil => exact initially
  | cons row rest ih =>
      rw [restore, List.foldl_cons]
      refine ih ?_
      rw [restoreRow]
      split
      · exact initially
      · rename_i roomName normed
        split
        · exact initially
        · rename_i same
          have named : roomName = row.roomName := not_not.mp same
          subst named
          exact kept core row initially normed

/-- Nobody is connected to a hub that starts. -/
structure Unattended (core : HubCore) : Prop where
  sessions : core.sessions = ∅
  byIdentity : core.byIdentity = ∅
  members : ∀ roomName room, core.rooms.lookup roomName = some room → room.members = ∅

theorem unattended_new [UnicodeTables] (config : ChannelHubConfig)
    (hubHash : IdentityHash) (klines : FiniteSet IdentityHash) (admission : AdmissionState)
    (pepper : Bytes 32) (restored : List HubRoomRow) (ambient : Ambient) :
    Unattended (HubCore.new config hubHash klines admission pepper restored
      ambient) := by
  unfold HubCore.new
  refine HubCore.restore_induct (fun core row unattended normed => ?_)
    restored ⟨rfl, rfl, fun roomName room held => ?_⟩
  · refine ⟨unattended.sessions, unattended.byIdentity,
      fun roomName room held => ?_⟩
    simp only [FiniteMap.lookup_insert_ite] at held
    split at held
    · cases held
      exact members_restoreRoom _ _ row
    · exact unattended.members roomName room held
  · rw [AList.lookup_empty] at held
    cases held

theorem Unattended.no_member {core : HubCore} (unattended : Unattended core)
    (roomName : String) (link : LinkId) :
    ¬ core.roll.members roomName link := by
  rintro ⟨room, held, inside⟩
  rw [unattended.members roomName room held] at inside
  exact FiniteSet.not_mem_empty link inside

theorem Unattended.no_session {core : HubCore} (unattended : Unattended core)
    (link : LinkId) : core.sessions.lookup link = none := by
  rw [unattended.sessions]
  rfl

theorem Unattended.coherent {core : HubCore}
    (unattended : Unattended core) : core.roll.Coherent := by
  refine ⟨fun link room => ?_, fun link room member => ?_,
    fun link room member => ?_, fun link room member => ?_⟩
  · constructor
    · intro member
      exact absurd member (unattended.no_member room link)
    · rintro ⟨session, live, -⟩
      rw [unattended.no_session link] at live
      cases live
  · exact absurd member (unattended.no_member room link)
  · exact absurd member (unattended.no_member room link)
  · exact absurd member (unattended.no_member room link)

/-! ## Coherence -/

/-- A link is in a room exactly if the room is among those of its session, and
its session is identified and welcomed. -/
structure HubCore.MembershipCoherent (core : HubCore) : Prop where
  mirrored : ∀ link roomName,
    (∃ room, core.rooms.lookup roomName = some room ∧ link ∈ room.members) ↔
    ∃ session, core.sessions.lookup link = some session ∧ roomName ∈ session.rooms
  attended : ∀ link roomName room,
    core.rooms.lookup roomName = some room → link ∈ room.members →
      ∃ session, core.sessions.lookup link = some session ∧
        session.identity.isSome = true ∧ session.welcomed = true

theorem membershipCoherent_of_roll {core : HubCore}
    (coherent : core.roll.Coherent) : core.MembershipCoherent := by
  refine ⟨fun link roomName => coherent.mirrored link roomName,
    fun link roomName room held inside => ?_⟩
  have member : core.roll.members roomName link := ⟨room, held, inside⟩
  obtain ⟨session, live, welcomed⟩ :=
    coherent.memberWelcomed link roomName member
  obtain ⟨identity, proved⟩ := coherent.memberIdentified link roomName member
  refine ⟨session, live, ?_, welcomed⟩
  have known : core.sessionIdentity link = some identity := proved
  rw [HubCore.sessionIdentity, live] at known
  exact Option.isSome_iff_exists.mpr ⟨identity, known⟩

section Runs

variable [UnicodeTables] [HubCrypto]

/-- A link is identified as a banned identity only while it is in no room. -/
def HubCore.RefusesRoomless (core : HubCore) (input : ServiceInput) : Prop :=
  match input.input.event with
  | .linkIdentified link identity =>
      identity ∈ core.klines →
        ((core.sessions.lookup link).all fun session =>
          session.rooms.isEmpty) = true
  | _ => True

instance (core : HubCore) (input : ServiceInput) :
    Decidable (core.RefusesRoomless input) := by
  unfold HubCore.RefusesRoomless
  split <;> infer_instance

theorem coherent_serve {core : HubCore} {input : ServiceInput}
    (coherent : core.roll.Coherent) (roomless : core.RefusesRoomless input) :
    (core.serve input).roll.Coherent := by
  rw [roll_serve]
  refine roll_step_induct coherent (fun link event => ?_)
    (fun link identity event welcome => ?_)
    (fun link identity event klined => ?_)
    (fun roll op coherent permitted allowed => ?_)
  · exact Roll.coherent_apply coherent trivial fun other equal => by
      cases equal
  · exact Roll.coherent_apply coherent trivial fun other equal => by
      cases equal
  · refine Roll.coherent_apply coherent trivial fun other equal room => ?_
    cases equal
    rintro ⟨session, live, joined⟩
    simp only [HubCore.RefusesRoomless, event, live, Option.all_some] at roomless
    exact (FiniteSet.isEmpty_iff _).mp (roomless klined) room joined
  · refine Roll.coherent_apply coherent allowed fun other equal => ?_
    subst equal
    exact False.elim permitted

/-- Memberships are coherent in every state of a run in which no link that is
in a room is refused. -/
theorem membershipCoherent_run (config : ChannelHubConfig)
    (hubHash : IdentityHash) (klines : FiniteSet IdentityHash)
    (admission : AdmissionState) (pepper : Bytes 32)
    (restored : List HubRoomRow) (ambient : Ambient) (inputs : List ServiceInput)
    (roomless : Along HubCore.serve HubCore.RefusesRoomless
      (HubCore.new config hubHash klines admission pepper restored ambient)
      inputs) :
    (runFrom HubCore.serve
      (HubCore.new config hubHash klines admission pepper restored ambient)
      inputs).MembershipCoherent := by
  have coherent : (runFrom HubCore.serve
      (HubCore.new config hubHash klines admission pepper restored ambient)
      inputs).roll.Coherent :=
    invariant_runFrom (fun core => core.roll.Coherent)
      (fun _ _ => coherent_serve)
      (unattended_new config hubHash klines admission pepper restored ambient).coherent roomless
  exact membershipCoherent_of_roll coherent

end Runs

/-! ## A small hub -/

/-- A keyed digest that can be evaluated. -/
@[reducible]
def sampleCrypto : HubCrypto where
  sha256 _ := Bytes.replicate 32 0
  hmacSha256 key message :=
    ⟨(message.reverse ++ key.val).take 32, by simp [key.property]⟩
  hmacVerify key message mac :=
    decide ((⟨(message.reverse ++ key.val).take 32, by
      simp [key.property]⟩ : Bytes 32) = mac)
  hmacVerify_iff _ _ _ := decide_eq_true_iff

section Samples

attribute [local instance] asciiTables sampleCrypto

def alice : IdentityHash := Bytes.replicate 16 1

def bob : IdentityHash := Bytes.replicate 16 2

def linkOne : LinkId := Bytes.replicate 16 1

def linkTwo : LinkId := Bytes.replicate 16 2

/-- The surroundings of the hub, some seconds after it started. -/
def ambientAt (count : Nat) : Ambient where
  instant := seconds count
  unix := seconds count
  ms := 1000 * count
  salt := Bytes.replicate 16 0

/-- A hub that Alice operates and that stores no rooms. -/
def sampleHub (klines : List IdentityHash) : HubCore :=
  HubCore.new { serverOperators := [alice] } (Bytes.replicate 16 9)
    (FiniteSet.ofList klines) (AdmissionState.new false 0)
    (Bytes.replicate 32 7) [] (ambientAt 0)

/-- An envelope as it comes off the wire. -/
def wireEnvelope (id : UInt8) (kind : MessageType) (sender : IdentityHash)
    (room : Option String) : Envelope :=
  { Envelope.new 0 kind sender with
    messageId := .wire (Bytes.replicate 8 id)
    room := room }

/-- An event one second after the start, all of whose writes succeed. -/
def served (event : HubEvent) : ServiceInput where
  input := ⟨ambientAt 1, event⟩
  fails _ := false

/-- A link identifies, says HELLO and joins a room. -/
def joining (link : LinkId) (identity : IdentityHash) (room : String) :
    List ServiceInput :=
  [served (.linkIdentified link identity),
    served (.linkPacket link (some (wireEnvelope 1 .hello identity none))),
    served (.linkPacket link (some (wireEnvelope 2 .join identity (some room))))]

/-- Alice joins a room, klines Bob, and identifies her link as Bob's. -/
def klining : List ServiceInput :=
  joining linkOne alice "r" ++
    [served (.adminMutation alice (.setHubBan bob true)), served (.linkIdentified linkOne bob)]

/-- A link in a room that is identified as a banned identity is dropped from
the sessions and stays a member. -/
theorem refusedMember_not_coherent :
    ¬ (runFrom HubCore.serve (sampleHub []) klining).MembershipCoherent := by
  intro coherent
  have inside : ((runFrom HubCore.serve (sampleHub [])
      klining).rooms.lookup "r").any
        (fun room => decide (linkOne ∈ room.members)) = true := by
    decide +kernel
  have gone : (runFrom HubCore.serve (sampleHub [])
      klining).sessions.lookup linkOne = none := by
    rw [← Option.isNone_iff_eq_none]
    decide +kernel
  obtain ⟨room, held, member⟩ := (Option.any_eq_true _ _).mp inside
  obtain ⟨session, live, -⟩ := (coherent.mirrored linkOne "r").mp
    ⟨room, held, of_decide_eq_true member⟩
  rw [gone] at live
  cases live

/-- A run in which the same identity is refused on a link of its own. -/
theorem membershipCoherent_refusedElsewhere :
    (runFrom HubCore.serve (sampleHub [bob])
      (joining linkOne alice "r" ++
        [served (.linkIdentified linkTwo bob)])).MembershipCoherent :=
  membershipCoherent_run _ _ _ _ _ _ _ _ (by decide +kernel)

end Samples

end Ratspeak
