import Ratspeak.Hub.Descent

/-!
# Rejoin leases

A link that goes away without having been turned out leaves a lease to its
identity: for a while it may enter the room again without an invite.  A lease
is for registered rooms that take invited guests only.  It does not outlive a
ban, and nobody who is in the room holds one.  The hub breaks the last rule
in two ways: when it identifies a link that is in a room as the holder of a
lease, and when the holder parts from a room that it is not in.
-/

namespace Ratspeak

open Library

/-! ## Leases -/

/-- The identity holds a lease on the room of that name. -/
def HubCore.Leased (core : HubCore) (roomName : String) (identity : IdentityHash) : Prop :=
  ∃ room, core.rooms.lookup roomName = some room ∧ room.Leases identity

/-- The room takes leases, and not from identities that are banned. -/
def HubCore.GatedFor (core : HubCore) (roomName : String) (identity : IdentityHash) : Prop :=
  ∃ room, core.rooms.lookup roomName = some room ∧
    room.registered = true ∧ room.inviteOnly = true ∧ ¬ identity ∈ room.bans

/-- Leases are held on registered rooms for invited guests, by identities
that are banned neither from the room nor from the hub, and that are not in
the room. -/
structure HubCore.LeasesSound (core : HubCore) : Prop where
  gated : ∀ roomName identity, core.Leased roomName identity → core.GatedFor roomName identity
  unlisted : ∀ roomName identity, core.Leased roomName identity → ¬ identity ∈ core.klines
  absent : ∀ roomName identity, core.Leased roomName identity →
    ¬ core.roll.present roomName identity

/-- A lease on the later room was held on the earlier one, whose gate is still
up, or was granted, and the gate is up. -/
def LeasedFrom (granted : String → IdentityHash → Prop) (roomName : String)
    (earlier later : HubRoom) : Prop :=
  ∀ identity, later.Leases identity →
    (earlier.Leases identity ∧
      (earlier.inviteOnly = true → later.inviteOnly = true) ∧
      (earlier.registered = true → later.registered = true)) ∨
    (granted roomName identity ∧ later.inviteOnly = true ∧ later.registered = true)

section Relation

variable {granted : String → IdentityHash → Prop}

theorem tolerant_leasedFrom : Tolerant (LeasedFrom granted) := by
  refine ⟨fun _ _ _ held => Or.inl ⟨held, id, id⟩,
    fun {_ first second third} one two identity held => ?_,
    fun {_ before after} shifted identity held => ?_⟩
  · rcases two identity held with ⟨kept, gate, listed⟩ | grant
    · rcases one identity kept with ⟨earlier, open_, known⟩ |
        ⟨grant, gated, known⟩
      · exact Or.inl ⟨earlier, fun invited => gate (open_ invited),
          fun registered => listed (known registered)⟩
      · exact Or.inr ⟨grant, gate gated, listed known⟩
    · exact Or.inr grant
  · refine Or.inl ⟨shifted.2 identity held, fun invited => ?_,
      fun registered => ?_⟩
    · rw [shifted.1]
      exact invited
    · rw [shifted.1]
      exact registered

theorem moderated_leasedFrom (pepperId : Bytes 8) :
    Moderated (LeasedFrom granted) pepperId := by
  refine ⟨fun amended identity held => ?_,
    fun registered identity held => ?_,
    fun unregistered identity held => ?_, fun identity held => ?_⟩
  · obtain ⟨kept, gate⟩ := amended.leases identity held
    exact Or.inl ⟨kept, fun invited => gate.trans invited,
      fun known => amended.registered.trans known⟩
  · obtain ⟨kept, gate⟩ := registered.leases identity held
    exact Or.inl ⟨kept, fun invited => gate.trans invited,
      fun _ => registered.registered⟩
  · exact absurd held (unregistered.leases identity)
  · exact Or.inl ⟨held, id, id⟩

/-- The leases that a link leaves behind are granted. -/
theorem grants_leasedFrom {core : HubCore} {link : LinkId} (grants : ∀ identity roomName room,
      core.LastIn link identity roomName room → granted roomName identity) :
    core.Grants (LeasedFrom granted) link := by
  intro identity roomName room ends last other held
  by_cases same : other = identity
  · subst same
    exact Or.inr ⟨grants other roomName room last, last.inviteOnly, last.registered⟩
  · rw [HubRoom.Leases, FiniteMap.lookup_insert_ite, if_neg same] at held
    exact Or.inl ⟨held, id, id⟩

end Relation

/-- Every lease was held before, on a room whose gate is still up, or was
granted. -/
def HubCore.LeasesFrom (granted : String → IdentityHash → Prop)
    (before after : HubCore) : Prop :=
  ∀ roomName room, after.rooms.lookup roomName = some room →
    ∀ identity, room.Leases identity →
      (∃ earlier, before.rooms.lookup roomName = some earlier ∧
        earlier.Leases identity ∧
        (earlier.inviteOnly = true → room.inviteOnly = true) ∧
        (earlier.registered = true → room.registered = true)) ∨
      (granted roomName identity ∧ room.inviteOnly = true ∧ room.registered = true)

namespace HubCore

theorem Descends.leasesFrom {granted : String → IdentityHash → Prop}
    {before after : HubCore} (descends : Descends (LeasedFrom granted) before after) :
    LeasesFrom granted before after := by
  intro roomName room held identity lease
  obtain ⟨earlier, earlierHeld, related⟩ := descends.rooms roomName room held
  rcases related identity lease with kept | grant
  · exact Or.inl ⟨earlier, earlierHeld, kept⟩
  · exact Or.inr grant

theorem LeasesFrom.leased {granted : String → IdentityHash → Prop}
    {before after : HubCore} (leases : LeasesFrom granted before after)
    {roomName : String} {identity : IdentityHash} (leased : after.Leased roomName identity) :
    before.Leased roomName identity ∨ granted roomName identity := by
  obtain ⟨room, held, lease⟩ := leased
  rcases leases roomName room held identity lease with
    ⟨earlier, earlierHeld, kept, -⟩ | ⟨grant, -⟩
  · exact Or.inl ⟨earlier, earlierHeld, kept⟩
  · exact Or.inr grant

/-- Nothing is granted by itself. -/
theorem LeasesFrom.earlier {before after : HubCore}
    (leases : LeasesFrom (fun _ _ => False) before after)
    {roomName : String} {identity : IdentityHash} (leased : after.Leased roomName identity) :
    before.Leased roomName identity := by
  rcases leases.leased leased with held | granted
  · exact held
  · exact granted.elim

/-- The gate of a room with a lease stays up. -/
theorem LeasesFrom.gatedFor {granted : String → IdentityHash → Prop}
    {before after : HubCore} (leases : LeasesFrom granted before after)
    (sound : before.LeasesSound) {roomName : String} {identity : IdentityHash}
    (leased : after.Leased roomName identity) (clear : ¬ after.roll.banned roomName identity) :
    after.GatedFor roomName identity := by
  obtain ⟨room, held, lease⟩ := leased
  have unbanned : ¬ identity ∈ room.bans :=
    fun banned => clear ⟨room, held, banned⟩
  rcases leases roomName room held identity lease with
    ⟨earlier, earlierHeld, kept, gate, known⟩ | ⟨-, invited, registered⟩
  · obtain ⟨found, foundHeld, registered, invited, -⟩ :=
      sound.gated roomName identity ⟨earlier, earlierHeld, kept⟩
    have same : found = earlier :=
      Option.some.inj (foundHeld.symm.trans earlierHeld)
    subst same
    exact ⟨room, held, known registered, gate invited, unbanned⟩
  · exact ⟨room, held, registered, invited, unbanned⟩

/-- Leases stay sound where none is granted and nobody who has one is banned
or let in. -/
theorem LeasesSound.after {before after : HubCore} (sound : before.LeasesSound)
    (leases : LeasesFrom (fun _ _ => False) before after)
    (unbanned : ∀ roomName identity, after.Leased roomName identity →
      after.roll.banned roomName identity → before.roll.banned roomName identity)
    (unlisted : ∀ roomName identity, after.Leased roomName identity →
      identity ∈ after.klines → identity ∈ before.klines)
    (absent : ∀ roomName identity, after.Leased roomName identity →
      after.roll.present roomName identity →
        before.roll.present roomName identity) : after.LeasesSound := by
  refine ⟨fun roomName identity leased => ?_,
    fun roomName identity leased banned => ?_,
    fun roomName identity leased present => ?_⟩
  · refine leases.gatedFor sound leased fun banned => ?_
    obtain ⟨room, held, -, -, clear⟩ :=
      sound.gated roomName identity (leases.earlier leased)
    obtain ⟨found, foundHeld, inside⟩ :=
      unbanned roomName identity leased banned
    rw [held] at foundHeld
    cases foundHeld
    exact clear inside
  · exact sound.unlisted roomName identity (leases.earlier leased)
      (unlisted roomName identity leased banned)
  · exact sound.absent roomName identity (leases.earlier leased)
      (absent roomName identity leased present)

end HubCore

/-! ## Moves that revoke -/

namespace HubTurn

/-- A change that erases the lease of an identity erases it. -/
theorem not_leased_modifyRoom (turn : HubTurn) (roomName : String)
    {change : HubRoom → HubRoom} {target : IdentityHash}
    (erases : ∀ room, (change room).rejoinUntil = room.rejoinUntil.erase target) :
    ¬ (turn.modifyRoom roomName change).core.Leased roomName target := by
  rintro ⟨room, held, lease⟩
  simp only [modifyRoom, mapCore_core, FiniteMap.lookup_adjust, if_true] at held
  obtain ⟨earlier, -, changed⟩ := Option.map_eq_some_iff.mp held
  subst changed
  exact (HubRoom.leases_of_erase (erases earlier) lease).1 rfl

theorem not_leased_ejectIdentityFromRoom (turn : HubTurn)
    (roomName : String) (target : IdentityHash) (reason : String) :
    ¬ (turn.ejectIdentityFromRoom roomName target reason).core.Leased
      roomName target := fun leased =>
  turn.not_leased_modifyRoom roomName (fun _ => rfl)
    ((descends_ejectLinks tolerant_leasedFrom roomName target reason _
      (turn.revokeLease roomName target)).leasesFrom.earlier leased)

theorem not_leased_enterRoom (turn : HubTurn) (roomName : String)
    (linkId : LinkId) (identity : IdentityHash) :
    ¬ (turn.enterRoom roomName linkId identity).core.Leased roomName
      identity := by
  rw [enterRoom_core]
  intro leased
  exact turn.not_leased_modifyRoom roomName (fun _ => rfl)
    ((descends_seatMember tolerant_leasedFrom turn roomName linkId
      identity).leasesFrom.earlier leased)

theorem not_leased_dismissIdentity {turn announced : HubTurn}
    {target : IdentityHash} {origin : Option LinkId}
    (recorded : announced.core = (turn.recordKline target origin).core) (roomName : String) :
    ¬ (announced.dismissIdentity target).core.Leased roomName target := by
  intro leased
  obtain ⟨room, held, lease⟩ := (descends_dismissIdentity
    tolerant_leasedFrom announced target).leasesFrom.earlier leased
  rw [recorded] at held
  have changed : (FiniteMap.mapValues
      (fun _ (room : HubRoom) =>
        { room with rejoinUntil := room.rejoinUntil.erase target })
      turn.core.rooms).lookup roomName = some room :=
    held
  rw [FiniteMap.lookup_mapValues] at changed
  obtain ⟨earlier, -, same⟩ := Option.map_eq_some_iff.mp changed
  subst same
  exact (HubRoom.leases_of_erase rfl lease).1 rfl

end HubTurn

/-! ## Moves -/

/-- The limits without letting anybody in, without bans from rooms, and
without links that are lost. -/
def Limits.calm (limits : Limits) : Limits :=
  { limits with
    permits := fun op => match op with
      | .bind _ _ => False
      | .enter _ _ => False
      | .expel _ _ true => False
      | _ => True
    loses := fun _ => False }

/-- A move lets somebody in, bans somebody from a room, loses a link, or does
none of that. -/
theorem Move.calm_cases {limits : Limits} {before after : HubTurn}
    (move : Move limits before after) :
    Move limits.calm before after ∨
    (∃ roomName link identity room, limits.permits (.enter link roomName) ∧
      before.core.rooms.lookup roomName = some room ∧
      before.core.sessionIdentity link = some identity ∧
      after = before.enterRoom roomName link identity) ∨
    (∃ roomName reason target origin,
      after = ((before.modifyRoom roomName fun room =>
          { room with
            bans := room.bans.insert target }).ejectIdentityFromRoom roomName
            target reason).persistRoom roomName origin) ∨
    ∃ link reason, limits.loses link ∧
      after = before.closeSession link reason := by
  cases move with
  | reply plain => exact Or.inl (.reply plain)
  | relay found scope content clear allowed =>
      exact Or.inl (.relay found scope content clear allowed)
  | tend same unheard => exact Or.inl (.tend same unheard)
  | note metered => exact Or.inl (.note metered)
  | retouch same => exact Or.inl (.retouch same)
  | welcome permitted => exact Or.inl (.welcome trivial)
  | found named absent empty noBans ephemeral clean storable leaseless =>
      exact Or.inl (.found named absent empty noBans ephemeral clean storable leaseless)
  | enter permitted live identified welcomed held clear =>
      refine Or.inr (Or.inl ⟨_, _, _, _, permitted, held, ?_, rfl⟩)
      rw [HubCore.sessionIdentity, live]
      exact identified
  | leave permitted identified => exact Or.inl (.leave trivial identified)
  | expel permitted => exact Or.inl (.expel trivial)
  | ban permitted => exact Or.inr (Or.inr (Or.inl ⟨_, _, _, _, rfl⟩))
  | close permitted sudden =>
      rename_i link reason
      by_cases keeps : reason.keepsLease = true
      · exact Or.inr (Or.inr (Or.inr ⟨link, reason, sudden keeps, rfl⟩))
      · exact Or.inl (.close trivial fun kept => keeps kept)
  | kline permitted answers => exact Or.inl (.kline (fun _ _ => trivial) answers)
  | unkline => exact Or.inl .unkline
  | restateKlines => exact Or.inl .restateKlines
  | amend amends answers => exact Or.inl (.amend amends answers)
  | register change pending present registers others settled answers =>
      exact Or.inl (.register change pending present registers others settled answers)
  | unregister change pending unregisters others settled answers drops =>
      exact Or.inl (.unregister change pending unregisters others settled answers drops)
  | restate => exact Or.inl .restate
  | retire empty => exact Or.inl (.retire empty)
  | drain => exact Or.inl .drain
  | lesserWrite lesser => exact Or.inl (.lesserWrite lesser)

/-- A founded room has no leases. -/
theorem Founds.leasesFrom {limits : Limits} {before after : HubCore}
    (founds : Founds limits before after) :
    HubCore.LeasesFrom (fun _ _ => False) before after := by
  obtain ⟨roomName, founded, -, -, leaseless, -, rfl⟩ := founds
  intro name room held identity lease
  rw [FiniteMap.lookup_insert_ite] at held
  split at held
  · cases held
    exact absurd lease (HubRoom.not_leases leaseless identity)
  · exact Or.inl ⟨room, held, lease, id, id⟩

theorem Move.leasesFrom {limits : Limits} {before after : HubTurn}
    (move : Move limits before after) (lossless : ∀ link, ¬ limits.loses link) :
    HubCore.LeasesFrom (fun _ _ => False) before.core after.core := by
  rcases move.descends tolerant_leasedFrom (moderated_leasedFrom _)
    (fun link lost => absurd lost (lossless link)) with descends | founds
  · exact descends.leasesFrom
  · exact founds.leasesFrom

/-- Where nobody is bound or let in, nobody becomes present, and who becomes
banned from the room was expelled for good. -/
theorem Traced.settled {permits : HubRollOp → Prop} {before after : HubTurn}
    (traced : Traced permits before after) {roomName : String} {identity : IdentityHash}
    (noBind : ∀ link known, ¬ permits (.bind link known))
    (noEnter : ∀ link, ¬ permits (.enter link roomName)) :
    (after.core.roll.present roomName identity → before.core.roll.present roomName identity) ∧
    (after.core.roll.banned roomName identity →
      before.core.roll.banned roomName identity ∨
        permits (.expel roomName identity true)) := by
  have kept : ∀ (roll : HubRoll) (op : HubRollOp),
      ((roll.present roomName identity →
          before.core.roll.present roomName identity) ∧
        (roll.banned roomName identity →
          before.core.roll.banned roomName identity ∨
            permits (.expel roomName identity true))) →
      permits op → roll.Allows op →
      ((roll.apply op).present roomName identity →
          before.core.roll.present roomName identity) ∧
        ((roll.apply op).banned roomName identity →
          before.core.roll.banned roomName identity ∨
            permits (.expel roomName identity true)) := by
    rintro roll op ⟨present, banned⟩ permitted allowed
    have notBind : ∀ link known, op ≠ .bind link known := by
      rintro link known rfl
      exact noBind link known permitted
    refine ⟨fun later => ?_, fun later => ?_⟩
    · rcases Roll.present_of_apply notBind later with earlier |
        ⟨link, rfl, -⟩
      · exact present earlier
      · exact absurd permitted (noEnter link)
    · rcases Roll.banned_of_apply allowed later with earlier | rfl
      · exact banned earlier
      · exact Or.inr permitted
  exact traced.path.induct kept ⟨id, Or.inl⟩

/-- A calm move lets nobody in and bans nobody from a room. -/
theorem Move.settled {limits : Limits} {before after : HubTurn}
    (move : Move limits.calm before after) {roomName : String} {identity : IdentityHash} :
    (after.core.roll.present roomName identity → before.core.roll.present roomName identity) ∧
    (after.core.roll.banned roomName identity →
      before.core.roll.banned roomName identity) := by
  have traced : Traced limits.calm.permits before after :=
    (traced_start before).move (fun _ => trivial) move
  obtain ⟨present, banned⟩ := @Traced.settled _ _ _ traced roomName identity
    (fun _ _ => id) fun _ => id
  exact ⟨present, fun later => (banned later).resolve_right id⟩

namespace HubCore

/-- A calm move keeps leases sound. -/
theorem LeasesSound.calm {limits : Limits} {before after : HubTurn}
    (move : Move limits.calm before after)
    (sound : before.core.LeasesSound) : after.core.LeasesSound := by
  refine sound.after (move.leasesFrom fun _ => id)
    (fun _ _ _ => move.settled.2)
    (fun roomName identity leased banned => ?_)
    fun _ _ _ => move.settled.1
  rcases move.klines with fewer | ⟨announced, target, origin, rfl, recorded⟩
  · exact fewer identity banned
  · by_cases same : identity = target
    · subst same
      exact absurd leased (HubTurn.not_leased_dismissIdentity recorded roomName)
    · have kept : (announced.dismissIdentity target).core.klines =
          announced.core.klines :=
        (HubTurn.reseats_foldl HubTurn.reseats_dismissLink _ _).core.klines
      rw [kept, recorded] at banned
      rcases (FiniteSet.mem_insert _ _ _).mp banned with equal | earlier
      · exact absurd equal same
      · exact earlier

/-- Whoever enters holds no lease any more. -/
theorem LeasesSound.enter {turn : HubTurn} {roomName : String}
    {link : LinkId} {identity : IdentityHash} {room : HubRoom}
    (held : turn.core.rooms.lookup roomName = some room)
    (proved : turn.core.sessionIdentity link = some identity) (sound : turn.core.LeasesSound) :
    (turn.enterRoom roomName link identity).core.LeasesSound := by
  have seated := HubTurn.seated_enterRoom held link identity
  have reseats := turn.reseats_enterRoom roomName link identity
  refine sound.after (HubTurn.descends_enterRoom tolerant_leasedFrom turn
    roomName link identity).leasesFrom
    (fun name other _ => seated.banned name other)
    (fun name other _ listed => ?_)
    fun name other leased present => ?_
  · rw [← reseats.core.klines]
    exact listed
  · obtain ⟨member, inside, known⟩ := present
    have earlier : turn.core.sessionIdentity member = some other :=
      (seated.identities member).symm.trans known
    rcases (seated.members name member).mp inside with before | ⟨rfl, rfl⟩
    · exact ⟨member, before, earlier⟩
    · have same : other = identity :=
        Option.some.inj (earlier.symm.trans proved)
      subst same
      exact absurd leased (turn.not_leased_enterRoom name member other)

/-- Whoever is banned from a room holds no lease on it any more. -/
theorem LeasesSound.ban {turn after : HubTurn} {roomName reason : String}
    {target : IdentityHash} {origin : Option LinkId}
    (bans : after = ((turn.modifyRoom roomName fun room =>
        { room with
          bans := room.bans.insert target }).ejectIdentityFromRoom roomName
          target reason).persistRoom roomName origin)
    (sound : turn.core.LeasesSound) : after.core.LeasesSound := by
  let limits : Limits :=
    { permits := fun op => op = .expel roomName target true ∨
        ∃ banned, op = .relax banned
      names := fun _ => False
      meters := False
      careful := False
      relays := fun _ _ => False
      remembers := False
      loses := fun _ => False }
  have move : Move limits turn after := by
    rw [bans]
    exact .ban (Or.inl rfl)
  have traced : Traced limits.permits turn after :=
    (traced_start turn).move (fun banned => Or.inr ⟨banned, rfl⟩) move
  have settled (name : String) (other : IdentityHash) :=
    @Traced.settled _ _ _ traced name other
      (fun _ _ permitted => by simp [limits] at permitted)
      fun _ permitted => by simp [limits] at permitted
  have unleased : ¬ after.core.Leased roomName target := by
    intro leased
    rw [bans] at leased
    exact HubTurn.not_leased_ejectIdentityFromRoom _ roomName target reason
      ((HubTurn.descends_persistRoom tolerant_leasedFrom _ roomName
        origin).leasesFrom.earlier leased)
  refine sound.after (move.leasesFrom fun _ => id)
    (fun name other leased banned => ?_) (fun _ other _ listed => ?_)
    fun name other _ => (settled name other).1
  · rcases (settled name other).2 banned with earlier | expelled
    · exact earlier
    · rcases expelled with same | ⟨fewer, same⟩
      · cases same
        exact absurd leased unleased
      · cases same
  · rw [bans, (((turn.reseats_modifyRoom _ _).trans
      (HubTurn.reseats_ejectIdentityFromRoom _ _ _ _)).trans
      (HubTurn.reseats_persistRoom _ _ _)).core.klines] at listed
    exact listed

/-- Whoever lost the last link to a room is not in it any more. -/
private theorem not_present_closeSession {turn : HubTurn} {link : LinkId}
    {reason : HubSessionCloseReason} {identity : IdentityHash}
    {roomName : String} {room : HubRoom} (last : turn.core.LastIn link identity roomName room)
    (traced : Traced (fun op => op = .close link ∨
      ∃ banned, op = .relax banned) turn (turn.closeSession link reason)) :
    ¬ (turn.closeSession link reason).core.roll.present roomName
      identity := by
  rintro ⟨other, inside, proved⟩
  have different : other ≠ link := by
    rintro rfl
    have gone : (turn.closeSession other reason).core.sessionIdentity other =
        none := by
      rw [HubCore.sessionIdentity, HubTurn.closeSession_lookup, if_pos rfl]
      rfl
    exact absurd (gone.symm.trans proved) (by simp)
  have earlier : turn.core.sessionIdentity other = some identity := by
    refine traced.path.identity (fun _ _ permitted => ?_) proved
    simp at permitted
  have kept : ∀ (roll : HubRoll) (op : HubRollOp),
      (roll.members roomName other → turn.core.roll.members roomName other) →
      (op = .close link ∨ ∃ banned, op = .relax banned) →
      roll.Allows op →
      ((roll.apply op).members roomName other →
        turn.core.roll.members roomName other) := by
    intro roll op before permitted _ after
    rcases Roll.members_of_apply after with member | rfl
    · exact before member
    · simp at permitted
  obtain ⟨found, foundHeld, member⟩ :=
    traced.path.induct kept id inside
  have same : found = room :=
    Option.some.inj (foundHeld.symm.trans last.held)
  have still : turn.core.identityStillInRoom room identity link = true :=
    (HubCore.identityStillInRoom_iff _ _ _ _).mpr ⟨other, same ▸ member, different, earlier⟩
  rw [last.last] at still
  cases still

/-- A link that goes away leaves leases on rooms where it was the last one of
its identity. -/
theorem LeasesSound.close {turn : HubTurn} {link : LinkId}
    (reason : HubSessionCloseReason) (unlisted : turn.core.Unlisted)
    (sound : turn.core.LeasesSound) :
    (turn.closeSession link reason).core.LeasesSound := by
  have leases : LeasesFrom
      (fun roomName identity => ∃ room,
        turn.core.LastIn link identity roomName room) turn.core
      (turn.closeSession link reason).core :=
    (HubTurn.descends_closeSession tolerant_leasedFrom fun _ =>
      grants_leasedFrom fun identity roomName room last =>
        ⟨room, last⟩).leasesFrom
  let limits : Limits :=
    { permits := fun op => op = .close link ∨ ∃ banned, op = .relax banned
      names := fun _ => False
      meters := False
      careful := False
      relays := fun _ _ => False
      remembers := False
      loses := fun _ => True }
  have traced : Traced limits.permits turn (turn.closeSession link reason) :=
    (traced_start turn).move (fun banned => Or.inr ⟨banned, rfl⟩)
      (.close (Or.inl rfl) fun _ => trivial)
  have settled (name : String) (other : IdentityHash) :=
    @Traced.settled _ _ _ traced name other
      (fun _ _ permitted => by simp [limits] at permitted)
      fun _ permitted => by simp [limits] at permitted
  refine ⟨fun roomName identity leased => ?_,
    fun roomName identity leased listed => ?_,
    fun roomName identity leased present => ?_⟩
  · refine leases.gatedFor sound leased fun banned => ?_
    have before : turn.core.roll.banned roomName identity := by
      rcases (settled roomName identity).2 banned with earlier | expelled
      · exact earlier
      · simp [limits] at expelled
    obtain ⟨found, foundHeld, inside⟩ := before
    rcases leases.leased leased with kept | ⟨room, last⟩
    · obtain ⟨room, held, -, -, clear⟩ := sound.gated roomName identity kept
      rw [held] at foundHeld
      cases foundHeld
      exact clear inside
    · rw [last.held] at foundHeld
      cases foundHeld
      exact last.clear inside
  · rw [(turn.reseats_closeSession link reason).core.klines] at listed
    rcases leases.leased leased with kept | ⟨room, last⟩
    · exact sound.unlisted roomName identity kept listed
    · exact unlisted link identity last.identified listed
  · rcases leases.leased leased with kept | ⟨room, last⟩
    · exact sound.absent roomName identity kept ((settled roomName identity).1 present)
    · exact not_present_closeSession last traced present

end HubCore

/-- Every move keeps leases sound. -/
theorem Move.leasesSound {limits : Limits} {before after : HubTurn}
    (move : Move limits before after) (unlisted : before.core.Unlisted)
    (sound : before.core.LeasesSound) : after.core.LeasesSound := by
  rcases move.calm_cases with calm |
    ⟨roomName, link, identity, room, -, held, proved, rfl⟩ |
    ⟨roomName, reason, target, origin, bans⟩ | ⟨link, reason, -, rfl⟩
  · exact sound.calm calm
  · exact sound.enter held proved
  · exact sound.ban bans
  · exact sound.close reason unlisted

end Ratspeak
