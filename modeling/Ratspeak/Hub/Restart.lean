import Ratspeak.Hub.Descent

/-!
# Restart

A hub forgets its registered rooms when it ends and rebuilds them from stored
rows.  What a room says in its row is what a fresh hub of the same identity
reads out of it: names are in normal form, an empty topic is none, and a key
belongs to the identity that made it.  The grants of a row come in the order
of loops over sets, so that rows are compared up to that order.
-/

namespace Ratspeak

open Library

/-! ## Rows -/

/-- The rows differ in the order of their grants at most. -/
structure HubRoomRow.Same (first second : HubRoomRow) : Prop where
  columns : { first with grants := [] } = { second with grants := [] }
  grants : first.grants.Perm second.grants

theorem HubRoomRow.Same.refl (row : HubRoomRow) : row.Same row :=
  ⟨rfl, .refl _⟩

theorem HubRoomRow.Same.trans {first second third : HubRoomRow}
    (one : first.Same second) (two : second.Same third) :
    first.Same third :=
  ⟨one.columns.trans two.columns, one.grants.trans two.grants⟩

/-- No invite among the grants of a row has expired. -/
def HubRoomRow.Unexpired (now : WallTime) (row : HubRoomRow) : Prop :=
  ∀ grant ∈ row.grants, grant.1 = "invite" → now < grant.2.2

/-- The rooms have the same policy, the same people and the same invites;
they may differ in who is there and in what is outstanding. -/
structure HubRoom.Alike (first second : HubRoom) : Prop where
  topic : first.topic = second.topic
  key : first.key = second.key
  moderated : first.moderated = second.moderated
  inviteOnly : first.inviteOnly = second.inviteOnly
  topicOpsOnly : first.topicOpsOnly = second.topicOpsOnly
  noOutsideMsgs : first.noOutsideMsgs = second.noOutsideMsgs
  isPrivate : first.isPrivate = second.isPrivate
  registered : first.registered = second.registered
  lastUsed : first.lastUsed = second.lastUsed
  ops : ∀ identity, identity ∈ first.ops ↔ identity ∈ second.ops
  voiced : ∀ identity, identity ∈ first.voiced ↔ identity ∈ second.voiced
  bans : ∀ identity, identity ∈ first.bans ↔ identity ∈ second.bans
  invited : ∀ identity, first.invited.lookup identity = second.invited.lookup identity

/-! ## Columns -/

theorem decodeColumn_hexEncode {length : Nat} (bytes : Bytes length) :
    decodeColumn length (hexEncode bytes.val) = some bytes := by
  rw [decodeColumn, hexDecode_hexEncode, Option.bind_some, Bytes.ofList, dif_pos bytes.property]

theorem hexEncode_nonempty {length : Nat} (bytes : Bytes (length + 1)) :
    (hexEncode bytes.val).isEmpty = false := by
  have size := length_hexEncode bytes.val
  rw [bytes.property] at size
  by_contra empty
  rw [Bool.not_eq_false, String.isEmpty_iff] at empty
  rw [empty] at size
  simp at size

/-- The key of a row that was written under this pepper id. -/
theorem decodeRoomKey_projectRoom {pepperId : Bytes 8} (roomName : String)
    {room : HubRoom} (storable : room.Storable pepperId) :
    ((decodeRoomKey (projectRoom roomName room)).filter fun digest =>
      digest.pepperId == pepperId) = room.key := by
  cases held : room.key with
  | none => simp [decodeRoomKey, projectRoom, held]
  | some digest =>
      have own := storable.key digest held
      have some : (hexEncode digest.mac.val).isEmpty = false :=
        hexEncode_nonempty (show Bytes (31 + 1) from digest.mac)
      simp [decodeRoomKey, projectRoom, held, some, decodeColumn_hexEncode, own]
      rw [← own]

/-! ## Grants -/

/-- The identities that a kind of stored grant is about. -/
def HubRoom.grantees (kind : String) (room : HubRoom) :
    FiniteSet IdentityHash :=
  if kind = "op" then room.ops
  else if kind = "voice" then room.voiced
  else room.bans

theorem mem_grantees_restoreGrant {kind : String}
    (stands : kind ∈ ["op", "voice", "ban"]) (now : WallTime)
    (room : HubRoom) (grant : String × String × WallTime) (identity : IdentityHash) :
    identity ∈ (restoreGrant now room grant).grantees kind ↔
      identity ∈ room.grantees kind ∨
        (grant.1 = kind ∧ decodeColumn 16 grant.2.1 = some identity) := by
  obtain ⟨given, subject, expires⟩ := grant
  rw [restoreGrant]
  cases decoded : decodeColumn 16 subject with
  | none => simp
  | some other =>
      simp only [List.mem_cons, List.not_mem_nil, or_false] at stands
      by_cases op : given = "op"
      · rcases stands with isKind | isKind | isKind
        · simp [HubRoom.grantees, op, isKind, or_comm, eq_comm]
        · simp [HubRoom.grantees, op, isKind]
        · simp [HubRoom.grantees, op, isKind]
      · by_cases voice : given = "voice"
        · rcases stands with isKind | isKind | isKind
          · simp [HubRoom.grantees, voice, isKind]
          · simp [HubRoom.grantees, voice, isKind, or_comm, eq_comm]
          · simp [HubRoom.grantees, voice, isKind]
        · by_cases ban : given = "ban"
          · rcases stands with isKind | isKind | isKind
            · simp [HubRoom.grantees, ban, isKind]
            · simp [HubRoom.grantees, ban, isKind]
            · simp [HubRoom.grantees, ban, isKind, or_comm, eq_comm]
          · have other : ¬ given = kind := by
              rcases stands with isKind | isKind | isKind
              · rwa [isKind]
              · rwa [isKind]
              · rwa [isKind]
            by_cases live : given = "invite" ∧ now < expires
            · obtain ⟨invite, fresh⟩ := live
              subst invite
              simp [HubRoom.grantees, other, fresh]
            · simp [HubRoom.grantees, op, voice, ban, live, other]

theorem lookup_invited_restoreGrant (now : WallTime) (room : HubRoom)
    (grant : String × String × WallTime) (identity : IdentityHash) :
    (restoreGrant now room grant).invited.lookup identity =
      if grant.1 = "invite" ∧ now < grant.2.2 ∧
          decodeColumn 16 grant.2.1 = some identity then some grant.2.2
      else room.invited.lookup identity := by
  obtain ⟨given, subject, expires⟩ := grant
  rw [restoreGrant]
  cases decoded : decodeColumn 16 subject with
  | none => simp
  | some other =>
      by_cases live : given = "invite" ∧ now < expires
      · simp [live, eq_comm]
      · have none : ¬ (given = "invite" ∧ now < expires ∧
            some other = some identity) := by
          intro holds
          exact live ⟨holds.1, holds.2.1⟩
        simp only [if_neg live, if_neg none]
        split
        · rfl
        · split
          · rfl
          · split
            · rfl
            · rfl

theorem mem_grantees_restoreGrants {kind : String}
    (stands : kind ∈ ["op", "voice", "ban"]) (now : WallTime)
    (room : HubRoom) (grants : List (String × String × WallTime)) (identity : IdentityHash) :
    identity ∈ (grants.foldl (restoreGrant now) room).grantees kind ↔
      identity ∈ room.grantees kind ∨ ∃ grant ∈ grants,
        grant.1 = kind ∧ decodeColumn 16 grant.2.1 = some identity := by
  induction grants generalizing room with
  | nil => simp
  | cons grant rest ih =>
      rw [List.foldl_cons, ih, mem_grantees_restoreGrant stands]
      simp only [List.exists_mem_cons_iff, or_assoc]

/-- What is left of the invites, if no two grants contradict each other. -/
theorem lookup_invited_restoreGrants {now : WallTime}
    {live : IdentityHash → Option WallTime} {room : HubRoom}
    {grants : List (String × String × WallTime)}
    (sound : ∀ grant ∈ grants, ∀ identity, grant.1 = "invite" →
      now < grant.2.2 → decodeColumn 16 grant.2.1 = some identity →
        live identity = some grant.2.2)
    (identity : IdentityHash) (complete : room.invited.lookup identity = live identity ∨
      ∃ grant ∈ grants, grant.1 = "invite" ∧ now < grant.2.2 ∧
        decodeColumn 16 grant.2.1 = some identity) :
    (grants.foldl (restoreGrant now) room).invited.lookup identity =
      live identity := by
  induction grants generalizing room with
  | nil => simpa using complete
  | cons grant rest ih =>
      rw [List.foldl_cons]
      apply ih (fun other among => sound other (List.mem_cons_of_mem grant among))
      rw [lookup_invited_restoreGrant]
      by_cases here : grant.1 = "invite" ∧ now < grant.2.2 ∧
          decodeColumn 16 grant.2.1 = some identity
      · rw [if_pos here]
        exact Or.inl (sound grant List.mem_cons_self identity here.1 here.2.1 here.2.2).symm
      · rw [if_neg here]
        rcases complete with already | ⟨other, among, isOther⟩
        · exact Or.inl already
        · rcases List.mem_cons.mp among with same | later
          · subst same
            exact absurd isOther here
          · exact Or.inr ⟨other, later, isOther⟩

/-! ## Reading a row back -/

/-- A stored grant is that of an identity with a role, or an invite. -/
theorem mem_grantRows {room : HubRoom} {grant : String × String × WallTime} :
    grant ∈ grantRows room ↔
      (∃ subject, subject ∈ room.ops ∧ grant = ("op", hexEncode subject.val, 0)) ∨
      (∃ subject, subject ∈ room.voiced ∧ grant = ("voice", hexEncode subject.val, 0)) ∨
      (∃ subject, subject ∈ room.bans ∧ grant = ("ban", hexEncode subject.val, 0)) ∨
      ∃ subject expires, room.invited.lookup subject = some expires ∧
        grant = ("invite", hexEncode subject.val, expires) := by
  simp only [grantRows, List.mem_append, List.mem_map, or_assoc,
    FiniteSet.mem_toList, eq_comm, Prod.exists, FiniteMap.mem_bindings_iff]

theorem granted_grantRows {kind : String}
    (stands : kind ∈ ["op", "voice", "ban"]) (room : HubRoom) (identity : IdentityHash) :
    (∃ grant ∈ grantRows room,
      grant.1 = kind ∧ decodeColumn 16 grant.2.1 = some identity) ↔
        identity ∈ room.grantees kind := by
  simp only [List.mem_cons, List.not_mem_nil, or_false] at stands
  constructor
  · rintro ⟨grant, among, isKind, isSubject⟩
    rcases mem_grantRows.mp among with
      ⟨subject, holds, same⟩ | ⟨subject, holds, same⟩ |
      ⟨subject, holds, same⟩ | ⟨subject, expires, holds, same⟩
    · subst same isKind
      rw [decodeColumn_hexEncode, Option.some.injEq] at isSubject
      simpa [HubRoom.grantees, ← isSubject] using holds
    · subst same isKind
      rw [decodeColumn_hexEncode, Option.some.injEq] at isSubject
      simpa [HubRoom.grantees, ← isSubject] using holds
    · subst same isKind
      rw [decodeColumn_hexEncode, Option.some.injEq] at isSubject
      simpa [HubRoom.grantees, ← isSubject] using holds
    · subst same isKind
      simp at stands
  · intro holds
    refine ⟨(kind, hexEncode identity.val, 0), ?_, rfl, decodeColumn_hexEncode identity⟩
    rw [mem_grantRows]
    rcases stands with isKind | isKind | isKind
    · subst isKind
      exact Or.inl ⟨identity, by simpa [HubRoom.grantees] using holds, rfl⟩
    · subst isKind
      exact Or.inr (Or.inl ⟨identity, by simpa [HubRoom.grantees] using holds, rfl⟩)
    · subst isKind
      exact Or.inr (Or.inr (Or.inl ⟨identity, by simpa [HubRoom.grantees] using holds, rfl⟩))

theorem invited_grantRows {room : HubRoom}
    {grant : String × String × WallTime} (among : grant ∈ grantRows room)
    (isInvite : grant.1 = "invite") :
    ∃ subject, decodeColumn 16 grant.2.1 = some subject ∧
      room.invited.lookup subject = some grant.2.2 := by
  rcases mem_grantRows.mp among with
    ⟨subject, holds, same⟩ | ⟨subject, holds, same⟩ |
    ⟨subject, holds, same⟩ | ⟨subject, expires, holds, same⟩
  · subst same
    simp at isInvite
  · subst same
    simp at isInvite
  · subst same
    simp at isInvite
  · subst same
    exact ⟨subject, decodeColumn_hexEncode subject, holds⟩

theorem HubRoomRow.Same.eq_with {first second : HubRoomRow} (same : first.Same second) :
    first = { second with grants := first.grants } := by
  have columns := same.columns
  cases first
  cases second
  simpa using columns

/-- Roles read out of grants in any order. -/
theorem grantees_of_perm {kind : String}
    (stands : kind ∈ ["op", "voice", "ban"]) {room start : HubRoom}
    {stored : List (String × String × WallTime)}
    (grants : stored.Perm (grantRows room)) (now : WallTime)
    (identity : IdentityHash) (fresh : ¬ identity ∈ start.grantees kind) :
    identity ∈ (stored.foldl (restoreGrant now) start).grantees kind ↔
      identity ∈ room.grantees kind := by
  rw [mem_grantees_restoreGrants stands, ← granted_grantRows stands room identity]
  simp only [fresh, false_or]
  constructor
  · rintro ⟨grant, among, isGrant⟩
    exact ⟨grant, grants.subset among, isGrant⟩
  · rintro ⟨grant, among, isGrant⟩
    exact ⟨grant, grants.symm.subset among, isGrant⟩

/-- Invites read out of grants in any order, before one of them expires. -/
theorem invited_of_perm {room start : HubRoom} {stored : List (String × String × WallTime)}
    (grants : stored.Perm (grantRows room)) {now : WallTime}
    (unexpired : ∀ grant ∈ stored, grant.1 = "invite" → now < grant.2.2)
    (fresh : start.invited = ∅) (identity : IdentityHash) :
    (stored.foldl (restoreGrant now) start).invited.lookup identity =
      room.invited.lookup identity := by
  apply lookup_invited_restoreGrants
  · intro grant among subject isInvite _ isSubject
    obtain ⟨other, isOther, held⟩ :=
      invited_grantRows (grants.subset among) isInvite
    rw [isSubject, Option.some.injEq] at isOther
    rw [isOther]
    exact held
  · cases held : room.invited.lookup identity with
    | none =>
        rw [fresh]
        exact Or.inl (AList.lookup_empty identity)
    | some expires =>
        have among : ("invite", hexEncode identity.val, expires) ∈
            grantRows room :=
          mem_grantRows.mpr (Or.inr (Or.inr (Or.inr ⟨identity, expires, held, rfl⟩)))
        have kept := grants.symm.subset among
        exact Or.inr ⟨_, kept, rfl, unexpired _ kept rfl, decodeColumn_hexEncode identity⟩

theorem restored_topic {topic : Option String} (known : topic ≠ some "") :
    (if (topic.getD "").isEmpty then none else some (topic.getD "")) =
      topic := by
  cases topic with
  | none => rfl
  | some topic =>
      have some : topic.isEmpty = false := by
        by_contra empty
        rw [Bool.not_eq_false, String.isEmpty_iff] at empty
        exact known (congrArg Option.some empty)
      simp [some]

/-- What a room says in its row, a hub of the same identity reads out of it
before an invite expires. -/
theorem restoreRoom_alike {pepperId : Bytes 8} {room : HubRoom}
    (storable : room.Storable pepperId) (registered : room.registered = true)
    {roomName : String} {row : HubRoomRow}
    (same : row.Same (projectRoom roomName room)) {now : WallTime}
    (unexpired : row.Unexpired now) :
    (restoreRoom pepperId now row).Alike room := by
  have isRow := same.eq_with
  have grants := same.grants
  rw [HubRoomRow.Unexpired] at unexpired
  generalize row.grants = stored at isRow grants unexpired
  subst isRow
  let start : HubRoom :=
    { registered := true
      topic := room.topic
      key := room.key
      moderated := room.moderated
      inviteOnly := room.inviteOnly
      topicOpsOnly := room.topicOpsOnly
      noOutsideMsgs := room.noOutsideMsgs
      isPrivate := room.isPrivate
      lastUsed := room.lastUsed }
  have key := decodeRoomKey_projectRoom roomName storable
  have begun : restoreRoom pepperId now
      { projectRoom roomName room with grants := stored } =
        stored.foldl (restoreGrant now) start := by
    simp only [start]
    rw [← key]
    conv_rhs => rw [← restored_topic storable.topic]
    rfl
  have people (kind : String) (stands : kind ∈ ["op", "voice", "ban"])
      (identity : IdentityHash) :=
    grantees_of_perm stands grants now identity
      (show ¬ identity ∈ start.grantees kind by simp [HubRoom.grantees, start])
  obtain ⟨ops, voiced, bans, invited, isRoom⟩ :=
    restoreGrants_eq now start stored
  rw [begun]
  constructor
  · rw [isRoom]
  · rw [isRoom]
  · rw [isRoom]
  · rw [isRoom]
  · rw [isRoom]
  · rw [isRoom]
  · rw [isRoom]
  · rw [isRoom]
    exact registered.symm
  · rw [isRoom]
  · exact people "op" (by simp)
  · exact people "voice" (by simp)
  · exact people "ban" (by simp)
  · exact invited_of_perm grants unexpired rfl

/-! ## Writing a row again -/

/-- Rooms that are alike have the same row. -/
theorem projectRoom_same {first second : HubRoom} (alike : first.Alike second)
    (roomName : String) :
    (projectRoom roomName first).Same (projectRoom roomName second) := by
  constructor
  · simp only [projectRoom, alike.topic, alike.key, alike.moderated,
      alike.inviteOnly, alike.topicOpsOnly, alike.noOutsideMsgs,
      alike.isPrivate, alike.lastUsed]
  · exact ((((FiniteSet.toList_perm alike.ops).map _).append
      ((FiniteSet.toList_perm alike.voiced).map _)).append
      ((FiniteSet.toList_perm alike.bans).map _)).append
      ((FiniteMap.bindings_perm alike.invited).map _)

theorem settle_alike {now : WallTime} {room : HubRoom} (unexpired : ∀ identity expires,
      room.invited.lookup identity = some expires → now < expires) :
    (room.settle now).Alike room := by
  refine ⟨rfl, rfl, rfl, rfl, rfl, rfl, rfl, rfl, rfl, fun _ => Iff.rfl,
    fun _ => Iff.rfl, fun _ => Iff.rfl, fun identity => ?_⟩
  simp only [HubRoom.settle, FiniteMap.lookup_retain]
  cases held : room.invited.lookup identity with
  | none => rfl
  | some expires => simp [Option.filter, unexpired identity expires held]

/-! ## What keeps rooms storable -/

/-- The hub is the same one, and every room stands where a room stood before
that it can be stored as well as. -/
structure HubCore.Inherits (before after : HubCore) : Prop where
  config : after.config = before.config
  hubHash : after.hubHash = before.hubHash
  pepperId : after.pepperId = before.pepperId
  rooms : ∀ roomName room, after.rooms.lookup roomName = some room →
    ∃ earlier, before.rooms.lookup roomName = some earlier ∧
      (earlier.Storable before.pepperId → room.Storable before.pepperId)

/-- The room can be stored as well as before. -/
def storedAsWell (pepperId : Bytes 8) (_ : String) (earlier later : HubRoom) : Prop :=
  earlier.Storable pepperId → later.Storable pepperId

theorem tolerant_storedAsWell (pepperId : Bytes 8) :
    Tolerant (storedAsWell pepperId) := by
  refine ⟨fun _ _ => id, fun one two storable => two (one storable),
    fun {_ before after} shifted storable => ?_⟩
  rw [shifted.1]
  exact ⟨storable.topic, storable.key⟩

theorem moderated_storedAsWell (pepperId : Bytes 8) :
    Moderated (storedAsWell pepperId) pepperId :=
  ⟨fun amended => amended.storable, fun registered => registered.storable,
    fun unregistered => unregistered.storable,
    fun storable => ⟨storable.topic, storable.key⟩⟩

theorem HubCore.Descends.inherits {before after : HubCore}
    (descends : HubCore.Descends (storedAsWell before.pepperId) before
      after) : before.Inherits after :=
  ⟨descends.config, descends.hubHash, descends.pepperId, descends.rooms⟩

/-- A move founds a blank room under a name that it may, or leaves every room
as fit to be stored as it was. -/
theorem Move.inherits {limits : Limits} {before after : HubTurn}
    (move : Move limits before after) :
    before.core.Inherits after.core ∨
      ∃ roomName room, limits.names roomName ∧
        room.Storable before.core.pepperId ∧
          after.core =
            { before.core with
              rooms := before.core.rooms.insert roomName room } := by
  have grants (link : LinkId) : HubCore.Grants
      (storedAsWell before.core.pepperId) before.core link :=
    fun _ _ _ _ _ storable => ⟨storable.topic, storable.key⟩
  rcases move.descends (tolerant_storedAsWell _) (moderated_storedAsWell _)
      fun link _ => grants link with
    descends | ⟨roomName, room, named, storable, -, -, founded⟩
  · exact Or.inl descends.inherits
  · exact Or.inr ⟨roomName, room, named, storable, founded⟩

/-! ## Runs -/

section Runs

variable [UnicodeTables]

/-- A normal name stays as it is. -/
theorem HubCore.normRoom_normRoom {core : HubCore} {raw roomName : String}
    (normed : core.normRoom raw = .ok roomName) :
    core.normRoom roomName = .ok roomName := by
  have idempotent := toLowercase_trim_idempotent raw
  rw [normRoom] at normed
  generalize toLowercase (trim raw) = normalized at normed idempotent
  split at normed
  · cases normed
  · rename_i some
    split at normed
    · cases normed
    · rename_i short
      cases normed
      rw [normRoom, idempotent, if_neg some, if_neg short]

theorem HubCore.normRoom_of_config {first second : HubCore}
    (same : first.config = second.config) (raw : String) :
    first.normRoom raw = second.normRoom raw := by
  rw [normRoom, normRoom, same]

/-- A name is also one where longer names are. -/
theorem HubCore.normRoom_of_le {first second : HubCore}
    (roomier : first.config.maxRoomNameBytes ≤
      second.config.maxRoomNameBytes) {raw roomName : String}
    (normed : first.normRoom raw = .ok roomName) :
    second.normRoom raw = .ok roomName := by
  rw [normRoom] at normed ⊢
  generalize toLowercase (trim raw) = normalized at normed ⊢
  split at normed
  · cases normed
  · rename_i some
    split at normed
    · cases normed
    · have short : ¬ second.config.maxRoomNameBytes <
          normalized.utf8ByteSize := by
        omega
      rw [if_neg some, if_neg short]
      exact normed

/-- What a fresh hub needs of a hub to find every room of it again. -/
structure HubCore.Restorable (config : ChannelHubConfig)
    (hubHash : IdentityHash) (core : HubCore) : Prop where
  sameConfig : core.config = config
  sameHash : core.hubHash = hubHash
  ownPepper : core.pepperId = pepperIdOf hubHash
  names : ∀ roomName room, core.rooms.lookup roomName = some room →
    core.normRoom roomName = .ok roomName
  rooms : ∀ roomName room, core.rooms.lookup roomName = some room → room.Storable core.pepperId

variable {config : ChannelHubConfig} {hubHash : IdentityHash}

theorem HubCore.Inherits.restorable {before after : HubCore}
    (inherits : before.Inherits after) (restorable : before.Restorable config hubHash) :
    after.Restorable config hubHash := by
  refine ⟨inherits.config.trans restorable.sameConfig,
    inherits.hubHash.trans restorable.sameHash,
    inherits.pepperId.trans restorable.ownPepper,
    fun roomName room held => ?_, fun roomName room held => ?_⟩
  · obtain ⟨earlier, earlierHeld, -⟩ := inherits.rooms roomName room held
    rw [HubCore.normRoom_of_config inherits.config]
    exact restorable.names roomName earlier earlierHeld
  · obtain ⟨earlier, earlierHeld, storable⟩ :=
      inherits.rooms roomName room held
    rw [inherits.pepperId]
    exact storable (restorable.rooms roomName earlier earlierHeld)

theorem HubCore.Restorable.insert {core : HubCore}
    (restorable : core.Restorable config hubHash) {roomName : String}
    {room : HubRoom} (normed : core.normRoom roomName = .ok roomName)
    (storable : room.Storable core.pepperId) :
    HubCore.Restorable config hubHash
      { core with rooms := core.rooms.insert roomName room } := by
  refine ⟨restorable.sameConfig, restorable.sameHash, restorable.ownPepper,
    fun name other held => ?_, fun name other held => ?_⟩
  · rw [FiniteMap.lookup_insert_ite] at held
    split at held
    · rename_i same
      rw [same]
      exact normed
    · exact restorable.names name other held
  · rw [FiniteMap.lookup_insert_ite] at held
    split at held
    · cases held
      exact storable
    · exact restorable.rooms name other held

omit [UnicodeTables] in
theorem storable_restoreRoom (pepperId : Bytes 8) (now : WallTime)
    (row : HubRoomRow) : (restoreRoom pepperId now row).Storable pepperId := by
  rw [restoreRoom]
  obtain ⟨ops, voiced, bans, invited, isRoom⟩ := restoreGrants_eq now
    { registered := true
      topic := if row.topic.isEmpty then none else some row.topic
      key := (decodeRoomKey row).filter fun digest =>
        digest.pepperId == pepperId
      moderated := row.moderated
      inviteOnly := row.inviteOnly
      topicOpsOnly := row.topicOpsOnly
      noOutsideMsgs := row.noOutsideMsgs
      isPrivate := row.isPrivate
      lastUsed := row.lastUsed } row.grants
  rw [isRoom]
  refine ⟨?_, fun digest held => ?_⟩
  · dsimp only
    split
    · simp
    · rename_i some
      intro empty
      apply some
      rw [Option.some.inj empty]
      rfl
  · exact beq_iff_eq.mp (Option.filter_eq_some_iff.mp held).2

theorem restorable_new (config : ChannelHubConfig) (hubHash : IdentityHash)
    (klines : FiniteSet IdentityHash) (admission : AdmissionState)
    (pepper : Bytes 32) (restored : List HubRoomRow) (ambient : Ambient) :
    (HubCore.new config hubHash klines admission pepper restored
      ambient).Restorable config hubHash := by
  have empty (roomName : String) (room : HubRoom)
      (held : (∅ : FiniteMap String HubRoom).lookup roomName = some room) :
      False := by
    rw [AList.lookup_empty] at held
    cases held
  rw [HubCore.new]
  refine HubCore.restore_induct (fun core row restorable normed => ?_)
    restored ⟨rfl, rfl, rfl,
      fun roomName room held => (empty roomName room held).elim,
      fun roomName room held => (empty roomName room held).elim⟩
  exact restorable.insert (HubCore.normRoom_normRoom normed)
    (storable_restoreRoom core.pepperId ambient.unix row)

variable [HubCrypto]

theorem restorable_step {core : HubCore}
    (restorable : core.Restorable config hubHash) (input : HubInput) :
    (core.step input).Restorable config hubHash := by
  have tolerant := tolerant_storedAsWell core.pepperId
  rw [HubCore.step]
  rcases links_or_moves core input with ⟨link, handled⟩ | ⟨link, identity, handled⟩ | moves
  · rw [handled]
    exact HubCore.Inherits.restorable
      (HubTurn.descends_openSession tolerant (core.turn input.ambient) link).inherits restorable
  · rw [handled]
    exact HubCore.Inherits.restorable
      (HubTurn.descends_onLinkIdentified tolerant (core.turn input.ambient)
        link identity).inherits restorable
  · have kept (before after : HubTurn)
        (move : Move (core.limitsOf input) before after)
        (before_restorable : before.core.Restorable config hubHash) :
        after.core.Restorable config hubHash := by
      rcases move.inherits with
        inherits | ⟨roomName, room, named, storable, same⟩
      · exact inherits.restorable before_restorable
      · obtain ⟨raw, normed⟩ := named
        have sameConfig : core.config = before.core.config :=
          restorable.sameConfig.trans before_restorable.sameConfig.symm
        rw [HubCore.normRoom_of_config sameConfig] at normed
        rw [same]
        exact before_restorable.insert (HubCore.normRoom_normRoom normed) storable
    exact moves.induct kept restorable

theorem restorable_serve {core : HubCore}
    (restorable : core.Restorable config hubHash) (input : ServiceInput) :
    (core.serve input).Restorable config hubHash :=
  HubCore.Inherits.restorable
    (descends_serve (tolerant_storedAsWell _) core input).inherits
    (restorable_step restorable input.input)

omit [UnicodeTables] [HubCrypto] in
/-- The row that is queued for a registered room. -/
theorem persistOps_persistRoom {core : HubCore} {roomName : String}
    {room : HubRoom} (held : core.rooms.lookup roomName = some room)
    (registered : room.registered = true) (ambient : Ambient) (origin : Option LinkId) :
    persistOps ((core.turn ambient).persistRoom roomName origin).out =
      [.upsert (projectRoom roomName (room.settle ambient.unix))] := by
  simp [HubTurn.persistRoom, HubCore.turn, held, registered,
    HubTurn.pushPersist, HubTurn.push, HubTurn.modifyRoom, HubTurn.mapCore,
    persistOps]

omit [HubCrypto] in
/-- A fresh hub with one row has one room. -/
theorem rooms_new {core : HubCore} (hubHash : IdentityHash) {row : HubRoomRow}
    (normed : core.normRoom row.roomName = .ok row.roomName) {config : ChannelHubConfig}
    (roomier : core.config.maxRoomNameBytes ≤ config.maxRoomNameBytes)
    (klines : FiniteSet IdentityHash) (admission : AdmissionState)
    (pepper : Bytes 32) (ambient : Ambient) (name : String) :
    (HubCore.new config hubHash klines admission pepper [row]
      ambient).rooms.lookup name =
      if name = row.roomName then
        some (restoreRoom (HubCore.pepperIdOf hubHash) ambient.unix row)
      else none := by
  have restores (blank : HubCore) (sameConfig : blank.config = config)
      (samePepper : blank.pepperId = HubCore.pepperIdOf hubHash)
      (noRooms : blank.rooms = ∅) :
      (blank.restore ambient.unix [row]).rooms.lookup name =
        if name = row.roomName then
          some (restoreRoom (HubCore.pepperIdOf hubHash) ambient.unix row)
        else none := by
    have stays : blank.normRoom row.roomName = .ok row.roomName := by
      apply HubCore.normRoom_of_le _ normed
      rw [sameConfig]
      exact roomier
    rw [HubCore.restore, List.foldl_cons, List.foldl_nil, HubCore.restoreRow, stays]
    dsimp only
    rw [if_neg (not_not.mpr rfl), samePepper, noRooms]
    dsimp only
    rw [FiniteMap.lookup_insert_ite, AList.lookup_empty]
  exact restores _ rfl rfl rfl

omit [UnicodeTables] [HubCrypto] in
theorem unexpired_invited {room : HubRoom} {roomName : String}
    {row : HubRoomRow} (same : row.Same (projectRoom roomName room))
    {now : WallTime} (unexpired : row.Unexpired now)
    (identity : IdentityHash) (expires : WallTime)
    (isInvited : room.invited.lookup identity = some expires) :
    now < expires := by
  have among : ("invite", hexEncode identity.val, expires) ∈
      grantRows room :=
    mem_grantRows.mpr (Or.inr (Or.inr (Or.inr ⟨identity, expires, isInvited, rfl⟩)))
  exact unexpired _ (same.grants.symm.subset among) rfl

omit [UnicodeTables] [HubCrypto] in
/-- A hub that has one room, restored from the row of a room, has that room,
and its row for it is the same one. -/
theorem roundTrip_of_rooms {roomName : String} {room : HubRoom}
    {pepperId : Bytes 8} (storable : room.Storable pepperId)
    (registered : room.registered = true) {stored : HubRoomRow}
    (same : stored.Same (projectRoom roomName room)) {now : WallTime}
    (unexpired : stored.Unexpired now) {fresh : HubCore}
    (rooms : ∀ name, fresh.rooms.lookup name =
      if name = roomName then some (restoreRoom pepperId now stored)
      else none) :
    ∃ again,
      (∀ name, fresh.rooms.lookup name =
        if name = roomName then some again else none) ∧
      again.Alike room ∧
      ∀ (later : Ambient) (origin : Option LinkId),
        stored.Unexpired later.unix →
        ∃ rewritten,
          persistOps ((fresh.turn later).persistRoom roomName origin).out =
            [.upsert rewritten] ∧
          rewritten.Same (projectRoom roomName room) := by
  have alike := restoreRoom_alike storable registered same unexpired
  refine ⟨restoreRoom pepperId now stored, rooms, alike, fun later origin stillUnexpired => ?_⟩
  have again : fresh.rooms.lookup roomName =
      some (restoreRoom pepperId now stored) := by
    rw [rooms, if_pos rfl]
  refine ⟨_, persistOps_persistRoom again (alike.registered.trans registered) later origin, ?_⟩
  have settled : ((restoreRoom pepperId now stored).settle later.unix).Alike
      (restoreRoom pepperId now stored) := by
    apply settle_alike
    intro identity expires isInvited
    rw [alike.invited] at isInvited
    exact unexpired_invited same stillUnexpired identity expires isInvited
  exact (projectRoom_same settled roomName).trans (projectRoom_same alike roomName)

/-- For every registered room of every state that a hub reaches, the row that
is stored for it, its grants in any order, makes a fresh hub of the same
identity have that room and no other before an invite in it expires; and the
row that is stored for the restored room is the same one. -/
theorem registryRoundTrip_run (config : ChannelHubConfig)
    (hubHash : IdentityHash) (klines : FiniteSet IdentityHash)
    (admission : AdmissionState) (pepper : Bytes 32)
    (restored : List HubRoomRow) (start : Ambient)
    (inputs : List ServiceInput) {roomName : String} {room : HubRoom}
    (held : (runFrom HubCore.serve
      (HubCore.new config hubHash klines admission pepper restored start)
      inputs).rooms.lookup roomName = some room)
    (registered : room.registered = true) (ambient : Ambient) (origin : Option LinkId) :
    ∃ row,
      persistOps (((runFrom HubCore.serve
        (HubCore.new config hubHash klines admission pepper restored start)
        inputs).turn ambient).persistRoom roomName origin).out = [.upsert row] ∧
      ∀ (stored : HubRoomRow) (nextConfig : ChannelHubConfig)
        (nextKlines : FiniteSet IdentityHash)
        (nextAdmission : AdmissionState) (nextPepper : Bytes 32)
        (next : Ambient),
        stored.Same row →
        config.maxRoomNameBytes ≤ nextConfig.maxRoomNameBytes →
        stored.Unexpired next.unix →
        let fresh := HubCore.new nextConfig hubHash nextKlines nextAdmission
          nextPepper [stored] next
        ∃ again,
          (∀ name, fresh.rooms.lookup name =
            if name = roomName then some again else none) ∧
          again.Alike (room.settle ambient.unix) ∧
          ∀ (later : Ambient) (laterOrigin : Option LinkId),
            stored.Unexpired later.unix →
            ∃ rewritten,
              persistOps ((fresh.turn later).persistRoom roomName
                laterOrigin).out = [.upsert rewritten] ∧
              rewritten.Same row := by
  have kept (core : HubCore) (input : ServiceInput)
      (restorable : core.Restorable config hubHash) :
      (core.serve input).Restorable config hubHash :=
    restorable_serve restorable input
  have reached := invariant_of_forall_step kept inputs
    (restorable_new config hubHash klines admission pepper restored start)
  generalize runFrom HubCore.serve (HubCore.new config hubHash klines
    admission pepper restored start) inputs = core at held reached
  refine ⟨_, persistOps_persistRoom held registered ambient origin, ?_⟩
  intro stored nextConfig nextKlines nextAdmission nextPepper next same roomier unexpired fresh
  have storable : (room.settle ambient.unix).Storable
      (HubCore.pepperIdOf hubHash) := by
    have known := reached.rooms roomName room held
    rw [reached.ownPepper] at known
    exact ⟨known.topic, known.key⟩
  have isName : stored.roomName = roomName :=
    congrArg HubRoomRow.roomName same.columns
  have normed : core.normRoom stored.roomName = .ok stored.roomName := by
    rw [isName]
    exact reached.names roomName room held
  have fits : core.config.maxRoomNameBytes ≤ nextConfig.maxRoomNameBytes := by
    rw [reached.sameConfig]
    exact roomier
  have rooms (name : String) : fresh.rooms.lookup name =
      if name = roomName then
        some (restoreRoom (HubCore.pepperIdOf hubHash) next.unix stored)
      else none := by
    have found := rooms_new hubHash normed fits nextKlines nextAdmission nextPepper next name
    rw [isName] at found
    exact found
  exact roundTrip_of_rooms storable registered same unexpired rooms

end Runs

section Samples

attribute [local instance] asciiTables sampleCrypto

/-- The ban of a stored room is in the next hub too, after an operator was in
the room. -/
theorem registryRoundTrip_bannedRoom :
    ∃ row,
      persistOps (((runFrom HubCore.serve banningHub
        (joining linkOne alice "r")).turn (ambientAt 2)).persistRoom "r"
          (some linkOne)).out = [.upsert row] ∧
      ∃ again,
        (HubCore.new {} (Bytes.replicate 16 9) ∅ (AdmissionState.new false 0)
          (Bytes.replicate 32 8) [row] (ambientAt 9)).rooms.lookup "r" = some again ∧
        bob ∈ again.bans := by
  have stays : ((runFrom HubCore.serve banningHub
      (joining linkOne alice "r")).rooms.lookup "r").any
      (fun room => decide (room.registered = true ∧
        bob ∈ (room.settle (ambientAt 2).unix).bans)) = true := by
    decide +kernel
  have noInvites : (persistOps (((runFrom HubCore.serve banningHub
      (joining linkOne alice "r")).turn (ambientAt 2)).persistRoom "r"
        (some linkOne)).out).all (fun
          | .upsert row => row.grants.all fun grant => grant.1 != "invite"
          | _ => true) = true := by
    decide +kernel
  obtain ⟨room, held, both⟩ := (Option.any_eq_true _ _).mp stays
  obtain ⟨registered, banned⟩ := of_decide_eq_true both
  obtain ⟨row, queued, restores⟩ := registryRoundTrip_run
    { serverOperators := [alice] } (Bytes.replicate 16 9) ∅
    (AdmissionState.new false 0) (Bytes.replicate 32 7) [bannedRow "r" bob]
    (ambientAt 0) (joining linkOne alice "r") held registered (ambientAt 2)
    (some linkOne)
  refine ⟨row, queued, ?_⟩
  rw [banningHub, queued] at noInvites
  have unexpired : row.Unexpired (ambientAt 9).unix := by
    intro grant among isInvite
    have others := List.all_eq_true.mp noInvites _ (List.mem_singleton_self _)
    have other := List.all_eq_true.mp others grant among
    rw [isInvite] at other
    cases other
  obtain ⟨again, rooms, alike, -⟩ := restores row {} ∅
    (AdmissionState.new false 0) (Bytes.replicate 32 8) (ambientAt 9)
    (.refl row) (Nat.le_refl _) unexpired
  refine ⟨again, ?_, (alike.bans bob).mpr banned⟩
  rw [rooms, if_pos rfl]

end Samples

end Ratspeak
